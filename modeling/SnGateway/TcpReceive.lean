import SnGateway.IpStack
import SnGateway.Tcp

/-!
# What the TCP connections receive

Each `TcpConnection` has a thread of its own, which reads from its socket and gives a message to the
queue of `TcpSocket` when `recv` has returned as many bytes as the first one of them says. Whatever
the order in which the threads run, the messages of a client come through exactly when every `recv`
returns one of them (`run_received_iff`): all others are dropped, here even the first one of two
that come together.
-/

namespace SnGateway
open RecordStore

structure TcpMessage where
  payload : List UInt8
  payloadLength : UInt16
  deviceAddress : DeviceAddress

namespace TcpMessage

def construct : TcpMessage := ⟨List.replicate 255 0, 0, Record.zero 6⟩

/-- The length is not stored. -/
def setPayload (payload : List UInt8) (msg : TcpMessage) : TcpMessage :=
  { msg with payload := IpStack.store msg.payload payload }

def setDeviceAddress (address : DeviceAddress) (msg : TcpMessage) : TcpMessage :=
  { msg with deviceAddress := address }

end TcpMessage

/-- The `receive_buffer` of every connection, and the calls of `receive_message` with the
connections they came from. -/
structure TcpReceivers (ι : Type) where
  receiveBuffer : ι → List UInt8
  received : List (ι × TcpMessage)

/-- `recv` on the socket of a connection. -/
abbrev TcpRead (ι : Type) := ι × Recv

namespace TcpReceivers
variable {ι : Type} [DecidableEq ι]

/-- One pass of `TcpConnection::loop`. No byte is -1. -/
def receive (deviceAddress : ι → DeviceAddress) (s : TcpReceivers ι) (read : TcpRead ι) :
    TcpReceivers ι :=
  match read.2 with
  | .failed => s
  | .bytes bs =>
    let receiveBuffer := IpStack.store (s.receiveBuffer read.1) bs
    { receiveBuffer := Function.update s.receiveBuffer read.1 receiveBuffer
      received :=
        if bs.length = (receiveBuffer.headD 0).toNat then
          s.received ++
            [(read.1, (TcpMessage.construct.setDeviceAddress (deviceAddress read.1)).setPayload
              (receiveBuffer.take bs.length))]
        else s.received }

/-- The messages of a connection, each as long as its first byte says. -/
def receivedFrom (t : ι) (s : TcpReceivers ι) : List (List UInt8) :=
  (s.received.filter fun r => r.1 = t).map fun r => readMessage r.2.payload

/-- What `recv` returned on the socket of a connection. -/
def segmentsOf (t : ι) (reads : List (TcpRead ι)) : List (List UInt8) :=
  reads.filterMap fun read =>
    match read.2 with
    | .failed => none
    | .bytes bs => if read.1 = t then some bs else none

/-- The connections are open, and `recv` returns no more than it is asked for. -/
def Open (reads : List (TcpRead ι)) : Prop :=
  ∀ read ∈ reads, ∀ bs, read.2 = .bytes bs → 0 < bs.length ∧ bs.length ≤ 255

/-- The first byte is the length. -/
def Whole (seg : List UInt8) : Bool := seg.length = (seg.headD 0).toNat

variable {deviceAddress : ι → DeviceAddress} {s : TcpReceivers ι} {t : ι}

/-- A segment that is given on. -/
theorem readMessage_payload {seg : List UInt8} (hseg : 0 < seg.length ∧ seg.length ≤ 255)
    (hwhole : Whole seg = true) (buf : List UInt8) (address : DeviceAddress) :
    readMessage ((TcpMessage.construct.setDeviceAddress address).setPayload
      ((IpStack.store buf seg).take seg.length)).payload =
        seg := by
  have hlen : seg.length = (seg.headD 0).toNat := of_decide_eq_true hwhole
  obtain ⟨b, bs, rfl⟩ := List.exists_cons_of_ne_nil (List.length_pos_iff.1 hseg.1)
  have htake : (IpStack.store buf (b :: bs)).take (b :: bs).length = b :: bs := List.take_left
  rw [htake, TcpMessage.setPayload, IpStack.store, readMessage, List.cons_append,
    List.headD_cons, ← List.cons_append]
  rw [List.headD_cons] at hlen
  rw [← hlen]
  exact List.take_left

theorem receivedFrom_receive {read : TcpRead ι} (hopen : Open [read]) :
    (s.receive deviceAddress read).receivedFrom t = s.receivedFrom t ++
      (segmentsOf t [read]).filter Whole := by
  obtain ⟨u, recv⟩ := read
  cases recv with
  | failed => exact (List.append_nil _).symm
  | bytes bs =>
    have hbs := hopen (u, .bytes bs) List.mem_cons_self bs rfl
    have hhead : (IpStack.store (s.receiveBuffer u) bs).headD 0 = bs.headD 0 := by
      obtain ⟨b, bs, rfl⟩ := List.exists_cons_of_ne_nil (List.length_pos_iff.1 hbs.1)
      rfl
    have hsegs : segmentsOf t [(u, Recv.bytes bs)] = if u = t then [bs] else [] := by
      unfold segmentsOf
      by_cases hu : u = t <;> simp [hu]
    unfold receive receivedFrom
    dsimp only
    rw [hhead, hsegs]
    by_cases hwhole : Whole bs = true
    · rw [if_pos (of_decide_eq_true hwhole), List.filter_append, List.map_append]
      congr 1
      by_cases hu : u = t
      · rw [if_pos hu]
        simp [hu, hwhole, readMessage_payload hbs hwhole]
      · simp [hu]
    · rw [if_neg fun h => hwhole (decide_eq_true h)]
      by_cases hu : u = t <;> simp [hu, hwhole]

/-- In any order of the threads. -/
theorem receivedFrom_foldl {reads : List (TcpRead ι)} (hopen : Open reads) :
    (reads.foldl (receive deviceAddress) s).receivedFrom t = s.receivedFrom t ++
      (segmentsOf t reads).filter Whole := by
  induction reads generalizing s with
  | nil => exact (List.append_nil _).symm
  | cons read reads ih =>
    have hsplit : segmentsOf t ([read] ++ reads) = segmentsOf t [read] ++ segmentsOf t reads :=
      List.filterMap_append
    rw [List.singleton_append] at hsplit
    rw [List.foldl_cons, ih fun r hr => hopen r (List.mem_cons_of_mem _ hr), receivedFrom_receive,
      hsplit, List.filter_append,
      List.append_assoc]
    exact fun r hr => hopen r (by rw [List.mem_singleton.1 hr]; exact List.mem_cons_self)

/-- Segments that are dropped are missing. -/
theorem filter_of_flatten {segs : List (List UInt8)} (hne : ∀ seg ∈ segs, 0 < seg.length)
    (h : (segs.filter Whole).flatten.length = segs.flatten.length) : segs.filter Whole = segs := by
  induction segs with
  | nil => rfl
  | cons seg segs ih =>
    obtain ⟨hseg, hne⟩ := List.forall_mem_cons.1 hne
    by_cases hwhole : Whole seg = true
    · rw [List.filter_cons_of_pos hwhole] at h ⊢
      rw [ih hne (by simpa using h)]
    · rw [List.filter_cons_of_neg hwhole, List.flatten_cons, List.length_append] at h
      have hle : (segs.filter Whole).flatten.length ≤ segs.flatten.length :=
        (List.Sublist.flatten List.filter_sublist).length_le
      omega

theorem whole_message (m : SnMessage) : Whole m.bytes = true := decide_eq_true m.length_eq.symm

/-- For each connection, in every order of the threads: the messages that its client wrote are those
that are received exactly when each of them was read at once and alone. -/
theorem run_received_iff {reads : List (TcpRead ι)} {ms : List SnMessage} (hs : s.received = [])
    (hopen : Open reads)
    (hstream : (segmentsOf t reads).flatten = (ms.map SnMessage.bytes).flatten) :
    (reads.foldl (receive deviceAddress) s).receivedFrom t = ms.map SnMessage.bytes ↔
      segmentsOf t reads = ms.map SnMessage.bytes := by
  have hstart : s.receivedFrom t = [] := by rw [receivedFrom, hs]; rfl
  rw [receivedFrom_foldl hopen, hstart, List.nil_append]
  constructor
  · intro h
    rw [← h]
    refine (filter_of_flatten (fun seg hseg => ?_) (by rw [h, hstream])).symm
    obtain ⟨⟨u, recv⟩, hread, hsome⟩ := List.mem_filterMap.1 hseg
    cases recv with
    | failed => cases hsome
    | bytes bs =>
      dsimp only at hsome
      split_ifs at hsome with hu
      rw [← Option.some.inj hsome]
      exact (hopen _ hread bs rfl).1
  · intro h
    rw [h, List.filter_eq_self]
    intro seg hseg
    obtain ⟨m, -, rfl⟩ := List.mem_map.1 hseg
    exact whole_message m

/-- Two clients write by turns, and the second one is cut off. -/
def twoClients : List (TcpRead Bool) :=
  [(false, .bytes ping.bytes), (true, .bytes [7, 11]), (false, .failed),
    (true, .bytes [0, 1, 0, 2, 0]),
    (false, .bytes regack.bytes)]

theorem run_received_iff_twoClients :
    (twoClients.foldl (receive fun _ => Record.zero 6) ⟨fun _ => List.replicate 255 0,
      []⟩).receivedFrom false =
        [ping.bytes, regack.bytes] := by
  have hopen : Open twoClients := by
    simp only [Open, twoClients, List.forall_mem_cons, List.not_mem_nil, false_implies,
      implies_true, and_true]
    simp [ping, regack]
  have hstream : (segmentsOf false twoClients).flatten =
      ([ping, regack].map SnMessage.bytes).flatten := rfl
  exact (run_received_iff rfl hopen hstream).2 rfl

end TcpReceivers

end SnGateway
