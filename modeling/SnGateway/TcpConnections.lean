import SnGateway.Entries
import SnGateway.Lib.FirstMatch

/-!
# The connections of the TCP socket

`TcpSocket` keeps its connections in a list and sends to the first one with the address of the
destination. The address of a connection is meant to be the IPv4 address and the port of its peer,
but `setSocketAddress` compares the port where it should copy it, and the last two bytes stay what
they were on the stack. `removeTcpConnection` erases the element its loop stands on, so that its
next step is undefined.
-/

namespace SnGateway
open RecordStore FirstMatch

/-- `sin_addr.s_addr` and `sin_port` of a peer, in network order. -/
structure Peer where
  sinAddr : UInt32
  sinPort : UInt16
deriving DecidableEq

/-- A connection of a client: the `TcpConnection` that was made for it, its socket and its peer. -/
structure Connection where
  pointer : Nat
  socketfd : Int
  peer : Peer
deriving DecidableEq

structure TcpConnection extends Connection where
  deviceAddress : DeviceAddress
deriving DecidableEq

/-- `address` is what the uninitialised variable holds; `memcmp` does not change it. -/
def TcpConnection.setSocketAddress (address : DeviceAddress) (c : Connection) : TcpConnection :=
  { c with deviceAddress := address.putNat ⟨0, 4⟩ c.peer.sinAddr.toNat }

/-- `sent` is what the system call returns. What it writes to which socket is the second part. -/
def TcpConnection.sendMessage (c : TcpConnection) (payload : List UInt8) (sent : Int) :
    Bool × List (Int × List UInt8) :=
  (sent = payload.length, [(c.socketfd, payload)])

namespace TcpSocket

def send (connections : List TcpConnection) (destination : DeviceAddress) (bytes : List UInt8)
    (sent : Int) : Bool × List (Int × List UInt8) :=
  match lookup TcpConnection.deviceAddress destination connections with
  | none => (false, [])
  | some connection => connection.sendMessage bytes sent

def addTcpConnection (connections : List TcpConnection) (c : TcpConnection) : List TcpConnection :=
  connections ++ [c]

/-- `none`: the loop goes on from an element that has been erased. -/
def removeTcpConnection (connections : List TcpConnection) (pointer : Nat) :
    Option (List TcpConnection) :=
  if connections.any fun c => c.pointer = pointer then none else some connections

end TcpSocket

/-- A client connects, or the connection at `pointer` ends. -/
inductive TcpEvent where
  | connect (c : Connection)
  | disconnect (pointer : Nat)

/-- The connections that are open after an event. -/
def openStep (opens : List Connection) : TcpEvent → List Connection
  | .connect c => opens ++ [c]
  | .disconnect pointer => opens.filter fun c => c.pointer ≠ pointer

def openConnections (events : List TcpEvent) : List Connection := events.foldl openStep []

/-- No event ends an open connection. -/
def KeepsOpen : List Connection → List TcpEvent → Prop
  | _, [] => True
  | opens, .connect c :: events => KeepsOpen (opens ++ [c]) events
  | opens, .disconnect pointer :: events =>
    (∀ c ∈ opens, c.pointer ≠ pointer) ∧ KeepsOpen opens events

namespace TcpSocket

def step (address : DeviceAddress) (connections : List TcpConnection) :
    TcpEvent → Option (List TcpConnection)
  | .connect c => some (addTcpConnection connections (.setSocketAddress address c))
  | .disconnect pointer => removeTcpConnection connections pointer

/-- `stack n` is what the uninitialised variable holds at the event `n`. -/
def run (stack : Nat → DeviceAddress) :
    Nat → List TcpConnection → List TcpEvent → Option (List TcpConnection)
  | _, connections, [] => some connections
  | n, connections, event :: events =>
    do run stack (n + 1) (← step (stack n) connections event) events

/-- Replies go to the right peer: the addresses are distinct, each leads to the socket of its
connection and to no other, and any other address leads nowhere. -/
structure Routes (connections : List TcpConnection) : Prop where
  distinct : (connections.map TcpConnection.deviceAddress).Nodup
  reaches : ∀ c ∈ connections, ∀ bytes sent, (send connections c.deviceAddress bytes sent).2 =
    [(c.socketfd, bytes)]
  unknown : ∀ destination, (∀ c ∈ connections, c.deviceAddress ≠ destination) →
    ∀ bytes sent, send connections destination bytes sent = (false, [])

/-- After the events the open connections are there, and replies go to the right peer. -/
def RoutesAfter (stack : Nat → DeviceAddress) (events : List TcpEvent) : Prop :=
  ∃ connections, run stack 0 [] events = some connections ∧
    connections.map TcpConnection.toConnection = openConnections events ∧ Routes connections

variable {stack : Nat → DeviceAddress} {connections : List TcpConnection} {opens : List Connection}
    {events : List TcpEvent}

theorem routes_of_nodup (h : (connections.map TcpConnection.deviceAddress).Nodup) :
    Routes connections := by
  refine ⟨h, fun c hc bytes sent => ?_, fun destination hd bytes sent => ?_⟩
  · have hfound : lookup TcpConnection.deviceAddress c.deviceAddress connections = some c :=
      lookup_of_unique hc fun d hd heq => List.inj_on_of_nodup_map h hd hc heq
    rw [send, hfound]
    rfl
  · rw [send, lookup_eq_none_iff.2 hd]

/-! ### What a run leaves in the list -/

/-- The list holds the open connections, set up one by one. -/
structure Represents (stack : Nat → DeviceAddress) (opens : List Connection)
    (connections : List TcpConnection) : Prop where
  connections_eq : connections.map TcpConnection.toConnection = opens
  set_up : ∀ c ∈ connections, ∃ n, c = .setSocketAddress (stack n) c.toConnection

theorem Represents.connect (h : Represents stack opens connections) (n : Nat) (c : Connection) :
    Represents stack (opens ++ [c])
      (addTcpConnection connections (.setSocketAddress (stack n) c)) := by
  constructor
  · rw [addTcpConnection, List.map_append, h.connections_eq]
    rfl
  · rw [addTcpConnection]
    intro d hd
    rcases List.mem_append.1 hd with hd | hd
    · exact h.set_up d hd
    · obtain rfl := List.mem_singleton.1 hd
      exact ⟨n, rfl⟩

theorem removeTcpConnection_eq (h : Represents stack opens connections) (pointer : Nat)
    [Decidable (∀ c ∈ opens, c.pointer ≠ pointer)] :
    removeTcpConnection connections pointer = if ∀ c ∈ opens,
      c.pointer ≠ pointer then some connections else none := by
  have hany : (connections.any fun c => c.pointer = pointer) = true ↔ ¬ ∀ c ∈ opens,
      c.pointer ≠ pointer := by
    rw [← h.connections_eq]
    simp
  rw [removeTcpConnection]
  by_cases hall : ∀ c ∈ opens, c.pointer ≠ pointer
  · rw [if_neg fun h => hany.1 h hall, if_pos hall]
  · rw [if_pos (hany.2 hall), if_neg hall]

theorem filter_of_keepsOpen {pointer : Nat} (h : ∀ c ∈ opens, c.pointer ≠ pointer) :
    openStep opens (.disconnect pointer) = opens :=
  List.filter_eq_self.2 fun c hc => decide_eq_true (h c hc)

theorem run_of_keepsOpen (hk : KeepsOpen opens events) (h : Represents stack opens connections)
    (n : Nat) :
    ∃ connections', run stack n connections events = some connections' ∧
      Represents stack (events.foldl openStep opens) connections' := by
  induction events generalizing opens connections n with
  | nil => exact ⟨connections, rfl, h⟩
  | cons event events ih =>
    cases event with
    | connect c => exact ih hk (h.connect n c) (n + 1)
    | disconnect pointer =>
      obtain ⟨hall, hk⟩ := hk
      obtain ⟨connections', hrun, hrep⟩ := ih hk h (n + 1)
      refine ⟨connections', ?_, ?_⟩
      · rw [run, step, removeTcpConnection_eq h, if_pos hall]
        exact hrun
      · rw [List.foldl_cons, filter_of_keepsOpen hall]
        exact hrep

/-- The end of an open connection is the end of the run. -/
theorem keepsOpen_of_run {connections' : List TcpConnection}
    (h : Represents stack opens connections) {n : Nat}
    (hrun : run stack n connections events = some connections') : KeepsOpen opens events := by
  induction events generalizing opens connections n with
  | nil => trivial
  | cons event events ih =>
    cases event with
    | connect c => exact ih (h.connect n c) hrun
    | disconnect pointer =>
      rw [run, step, removeTcpConnection_eq h] at hrun
      by_cases hall : ∀ c ∈ opens, c.pointer ≠ pointer
      · rw [if_pos hall] at hrun
        exact ⟨hall, ih h hrun⟩
      · rw [if_neg hall] at hrun
        cases hrun

/-! ### Addresses -/

/-- The IPv4 addresses of the peers are pairwise distinct. -/
def DistinctHosts (opens : List Connection) : Prop :=
  opens.Pairwise fun c d => c.peer.sinAddr ≠ d.peer.sinAddr

theorem getNat_setSocketAddress (address : DeviceAddress) (c : Connection) :
    (TcpConnection.setSocketAddress address c).deviceAddress.getNat ⟨0, 4⟩ =
      c.peer.sinAddr.toNat := by
  rw [TcpConnection.setSocketAddress, Record.getNat_putNat_self _ (by decide)]
  exact Nat.mod_eq_of_lt c.peer.sinAddr.toNat_lt

theorem nodup_deviceAddress (h : Represents stack opens connections) (hd : DistinctHosts opens) :
    (connections.map TcpConnection.deviceAddress).Nodup := by
  rw [DistinctHosts, ← h.connections_eq, List.pairwise_map] at hd
  rw [List.Nodup, List.pairwise_map]
  refine hd.imp_of_mem fun {c d} hc hd hne heq => hne ?_
  obtain ⟨m, hm⟩ := h.set_up c hc
  obtain ⟨n, hn⟩ := h.set_up d hd
  have hnat := congrArg (fun address : DeviceAddress => address.getNat ⟨0, 4⟩) heq
  rw [hm, hn, getNat_setSocketAddress, getNat_setSocketAddress] at hnat
  exact UInt32.toNat_inj.1 hnat

/-- On a stack that always holds the same bytes, the port makes no difference. -/
theorem distinctHosts_of_nodup {address : DeviceAddress}
    (h : Represents (fun _ => address) opens connections)
    (hd : (connections.map TcpConnection.deviceAddress).Nodup) : DistinctHosts opens := by
  rw [List.Nodup, List.pairwise_map] at hd
  rw [DistinctHosts, ← h.connections_eq, List.pairwise_map]
  refine hd.imp_of_mem fun {c d} hc hd hne heq => hne ?_
  obtain ⟨-, hc⟩ := h.set_up c hc
  obtain ⟨-, hd⟩ := h.set_up d hd
  rw [hc, hd]
  simp only [TcpConnection.setSocketAddress, heq]

theorem represents_nil (stack : Nat → DeviceAddress) : Represents stack [] [] := ⟨rfl, by simp⟩

theorem keepsOpen_append_iff {before later : List TcpEvent} :
    KeepsOpen opens (before ++ later) ↔ KeepsOpen opens before ∧
      KeepsOpen (before.foldl openStep opens) later := by
  induction before generalizing opens with
  | nil => exact (and_iff_right trivial).symm
  | cons event before ih =>
    cases event with
    | connect c => exact ih
    | disconnect pointer =>
      rw [List.cons_append, KeepsOpen, ih, KeepsOpen, and_assoc, List.foldl_cons]
      refine and_congr_right fun h => ?_
      rw [filter_of_keepsOpen h]

theorem prefix_of_keepsOpen (hk : KeepsOpen opens events) :
    opens <+: events.foldl openStep opens := by
  induction events generalizing opens with
  | nil => exact List.prefix_rfl
  | cons event events ih =>
    cases event with
    | connect c => exact (List.prefix_append opens [c]).trans (ih hk)
    | disconnect pointer =>
      rw [List.foldl_cons, filter_of_keepsOpen hk.1]
      exact ih hk.2

theorem routesAfter_of_keepsOpen (stack : Nat → DeviceAddress) (hk : KeepsOpen [] events)
    (hd : DistinctHosts (openConnections events)) : RoutesAfter stack events := by
  obtain ⟨connections, hrun, hrep⟩ := run_of_keepsOpen hk (represents_nil stack) 0
  exact ⟨connections, hrun, hrep.connections_eq, routes_of_nodup (nodup_deviceAddress hrep hd)⟩

/-- Whatever is on the stack, replies go to the right peer all along the events, if and only if no
open connection ends and no two come from one host. -/
theorem replies_reach_peer_iff (events : List TcpEvent) :
    (∀ stack, ∀ before, before <+: events → RoutesAfter stack before) ↔
      KeepsOpen [] events ∧ DistinctHosts (openConnections events) := by
  constructor
  · intro h
    obtain ⟨connections, hrun, -, hroutes⟩ := h (fun _ => Record.zero 6) events List.prefix_rfl
    have hk := keepsOpen_of_run (represents_nil _) hrun
    obtain ⟨connections', hrun', hrep⟩ := run_of_keepsOpen hk (represents_nil _) 0
    obtain rfl := Option.some.inj (hrun.symm.trans hrun')
    exact ⟨hk, distinctHosts_of_nodup hrep hroutes.distinct⟩
  · rintro ⟨hk, hd⟩ stack before ⟨later, rfl⟩
    obtain ⟨hbefore, hlater⟩ := keepsOpen_append_iff.1 hk
    refine routesAfter_of_keepsOpen stack hbefore (hd.sublist ?_)
    rw [openConnections, openConnections, List.foldl_append]
    exact (prefix_of_keepsOpen hlater).sublist

/-- Two clients behind one address. -/
def oneHost : List TcpEvent :=
  [.connect ⟨1, 5, ⟨0x0700000A, 0x1027⟩⟩, .connect ⟨2, 6, ⟨0x0700000A, 0x1127⟩⟩]

theorem one_host_confused :
    ((openConnections oneHost).map Connection.peer).Nodup ∧
      ¬ RoutesAfter (fun _ => Record.zero 6) oneHost := by
  refine ⟨by decide, fun ⟨connections, hrun, _, hroutes⟩ => ?_⟩
  obtain rfl := Option.some.inj hrun
  exact absurd hroutes.distinct (by decide)

end TcpSocket

end SnGateway
