import SnGateway.Entries

/-!
# The single TCP connection

`SingleTcpSocket::loop` accepts one client and then hands every result of `recv` to the message
handler in a zeroed buffer of 255 bytes, whose first byte is taken for the length of the message. A
stream has no message boundaries: what arrives is the client's messages exactly when every `recv`
returns one of them.
-/

namespace SnGateway
open RecordStore

/-- `BUFLEN`. -/
def BUFLEN : Nat := 255

/-- `PORT`, the port of a socket without one. -/
def TCP_PORT : UInt16 := 8888

/-- What the system calls of one `loop` return. `recv` is what was copied into the buffer, nothing
when the call returned 0 or -1. -/
structure SystemCalls where
  socket : Int
  setsockopt : Int
  bind : Int
  fcntl : Int
  accept : Int
  recv : Payload

structure SingleTcpSocket where
  tcpSocket : Int
  connectionSocket : Int
  /-- `sin_addr.s_addr` and `sin_port` of `tcp_socket_address`, in network order. -/
  sinAddr : UInt32
  sinPort : UInt16
  saveFd : Int
  /-- A message handler is set. -/
  handler : Bool

namespace SingleTcpSocket

/-- `save_fd |= O_NONBLOCK`. -/
def setNonblock (flags : Int) : Int := if flags = -1 then -1 else (flags.toNat ||| 2048 : Nat)

def getDeviceAddress (s : SingleTcpSocket) : DeviceAddress :=
  let port := if s.sinPort = 0 then TCP_PORT else s.sinPort
  ((Record.zero 6).putNat ⟨0, 4⟩ s.sinAddr.toNat).putNat ⟨4, 2⟩ port.toNat

/-- `!(tcp_socket = socket(..)) > 0` holds for the descriptor 0 only; `htons(PORT)` is 8888 with its
bytes swapped. -/
def initTcpSocket (sys : SystemCalls) (s : SingleTcpSocket) : Bool × SingleTcpSocket :=
  let s := { s with tcpSocket := sys.socket }
  if sys.socket = 0 then (false, s)
  else
    let s := { s with sinAddr := 0, sinPort := 0xB822 }
    if sys.setsockopt = -1 then (false, s)
    else if sys.bind ≠ 0 then (false, s)
    else
      let s := { s with connectionSocket := 0 }
      (decide (s.saveFd ≠ -1), s)

def begin (sys : SystemCalls) (s : SingleTcpSocket) : Bool × SingleTcpSocket × List Notice :=
  if !s.handler then (false, s, [])
  else
    let (ok, s) := initTcpSocket sys s
    if !ok then (false, s, [])
    else (decide (0 ≤ s.tcpSocket), s, if 0 ≤ s.tcpSocket then [.socketConnected] else [])

def loop (sys : SystemCalls) (s : SingleTcpSocket) : Bool × SingleTcpSocket × List Notice :=
  if s.tcpSocket < 0 then
    let (ok, s, notices) := begin sys s
    if ok then (true, s, .socketDisconnected :: notices ++ [.socketConnected])
    else (false, s, .socketDisconnected :: notices)
  else if s.connectionSocket ≤ 0 then
    (true, { s with saveFd := setNonblock sys.fcntl, connectionSocket := sys.accept }, [])
  else
    let s := { s with saveFd := setNonblock sys.fcntl }
    let buf := sys.recv.bytes ++ List.replicate (BUFLEN - sys.recv.bytes.length) 0
    (true, s, if 0 < sys.recv.bytes.length then [.receiveData s.getDeviceAddress buf] else [])

/-- The notices of repeated calls. -/
def runLoop : SingleTcpSocket → List SystemCalls → List Notice
  | _, [] => []
  | s, sys :: calls => (s.loop sys).2.2 ++ runLoop (s.loop sys).2.1 calls

end SingleTcpSocket

/-- A buffer as the message of the length in its first byte. -/
def readMessage (buf : List UInt8) : List UInt8 := buf.take (buf.headD 0).toNat

/-- The messages handed to the message handler. -/
def receivedMessages (notices : List Notice) : List (List UInt8) :=
  notices.filterMap fun
    | .receiveData _ buf => some (readMessage buf)
    | _ => none

/-- A message of MQTT-SN: its first byte is its length. -/
structure SnMessage where
  bytes : List UInt8
  two_le : 2 ≤ bytes.length
  le : bytes.length ≤ 255
  length_eq : (bytes.headD 0).toNat = bytes.length

/-- A segment as it is read from the zeroed buffer. -/
def readSegment (seg : List UInt8) : List UInt8 :=
  readMessage (seg ++ List.replicate (BUFLEN - seg.length) 0)

/-- The results of `recv` that hold data. -/
def segments (calls : List SystemCalls) : List (List UInt8) :=
  (calls.map fun sys => sys.recv.bytes).filter (· ≠ [])

namespace SingleTcpSocket

/-- A connected socket hands over every segment. -/
theorem receivedMessages_runLoop {s : SingleTcpSocket} (hsocket : 0 ≤ s.tcpSocket)
    (hconn : 0 < s.connectionSocket) (calls : List SystemCalls) :
    receivedMessages (s.runLoop calls) = (segments calls).map readSegment := by
  induction calls generalizing s with
  | nil => rfl
  | cons sys calls ih =>
    have hloop : s.loop sys = (true, { s with saveFd := setNonblock sys.fcntl },
        if 0 < sys.recv.bytes.length then
          [.receiveData s.getDeviceAddress
            (sys.recv.bytes ++ List.replicate (BUFLEN - sys.recv.bytes.length) 0)]
        else []) := by
      unfold loop
      rw [if_neg (by omega), if_neg (by omega)]
      rfl
    have ih := ih (s := { s with saveFd := setNonblock sys.fcntl }) hsocket hconn
    rw [runLoop, hloop]
    dsimp only
    rw [receivedMessages, List.filterMap_append, ← receivedMessages, ← receivedMessages, ih]
    by_cases hempty : sys.recv.bytes = []
    · have hsegs : segments (sys :: calls) = segments calls :=
        List.filter_cons_of_neg (by simpa using hempty)
      rw [hsegs, if_neg (by simp [hempty])]
      rfl
    · have hsegs : segments (sys :: calls) = sys.recv.bytes :: segments calls :=
        List.filter_cons_of_pos (by simpa using hempty)
      rw [hsegs, if_pos (List.length_pos_iff.2 hempty)]
      rfl

end SingleTcpSocket

/-! ### Segments that read as the messages -/

/-- What a segment reads as: it is cut off behind the message, or zeros take the place of what is
missing. -/
theorem getElem?_of_read {seg : List UInt8} {m : SnMessage} (hseg : seg ≠ [])
    (h : readSegment seg = m.bytes) {i : Nat} (hi : i < m.bytes.length) :
    m.bytes[i]? = if i < seg.length then seg[i]? else some 0 := by
  have hle := m.le
  have htwo := m.two_le
  obtain ⟨b, seg, rfl⟩ := List.exists_cons_of_ne_nil hseg
  have hread : m.bytes = (b :: seg ++ List.replicate (BUFLEN - (b :: seg).length) 0).take
      b.toNat := by
    rw [← h]
    rfl
  have hlt : i < b.toNat := by
    rw [hread, List.length_take] at hi
    omega
  rw [hread, List.getElem?_take, if_pos hlt]
  split
  · next hin => rw [List.getElem?_append_left hin]
  · next hout =>
    rw [List.getElem?_append_right (by omega), List.getElem?_replicate,
      if_pos (by simp only [BUFLEN]; omega)]

theorem SnMessage.head_ne {m : SnMessage} : m.bytes[0]? ≠ some 0 := by
  have htwo := m.two_le
  have hlen := m.length_eq
  intro h0
  rw [List.headD_eq_head?_getD, List.head?_eq_getElem?, h0] at hlen
  exact absurd hlen (by simp; omega)

/-- A text that is its own rest, shifted and followed by zeros, has zeros only. -/
theorem getElem?_of_shift {text : List UInt8} {k : Nat} (hk : k ≠ 0)
    (h : ∀ i < text.length, text[i]? = if k + i < text.length then text[k + i]? else some 0)
    {i : Nat} (hi : i < text.length) : text[i]? = some 0 := by
  obtain ⟨n, hn⟩ : ∃ n, n + i = text.length := ⟨text.length - i, Nat.sub_add_cancel hi.le⟩
  induction n using Nat.strongRecOn generalizing i with
  | _ n ih =>
    rw [h i hi]
    split
    · next hin => exact ih (n - k) (by omega) hin (by omega)
    · rfl

/-- Segments of the rest of a stream that read as its messages start with it and are
the messages. -/
theorem segments_eq_of_read {segs : List (List UInt8)} {ms : List SnMessage} {k : Nat}
    (hsegs : ∀ seg ∈ segs, seg ≠ []) (hk : k ≤ (ms.map SnMessage.bytes).flatten.length)
    (hflat : segs.flatten = (ms.map SnMessage.bytes).flatten.drop k)
    (hread : segs.map readSegment = ms.map SnMessage.bytes) :
    k = 0 ∧ segs = ms.map SnMessage.bytes := by
  induction ms generalizing segs k with
  | nil => exact ⟨Nat.le_zero.1 hk, by simpa using hread⟩
  | cons m ms ih =>
    obtain ⟨seg, segs, rfl⟩ : ∃ seg segs', segs = seg :: segs' := by
      cases segs with
      | nil => simp at hread
      | cons seg segs => exact ⟨seg, segs, rfl⟩
    rw [List.map_cons, List.map_cons, List.cons.injEq] at hread
    obtain ⟨hm, hread⟩ := hread
    have hseg := hsegs seg List.mem_cons_self
    have hpos := List.length_pos_iff.2 hseg
    have hbyte := fun i hi => getElem?_of_read (i := i) hseg hm hi
    rw [List.map_cons, List.flatten_cons, List.flatten_cons] at hflat
    rw [List.map_cons, List.flatten_cons, List.length_append] at hk
    have htail : segs.flatten = (m.bytes ++ (ms.map SnMessage.bytes).flatten).drop
        (k + seg.length) := by
      rw [← List.drop_drop, ← hflat, List.drop_left]
    have hidx : ∀ i < seg.length,
        seg[i]? = (m.bytes ++ (ms.map SnMessage.bytes).flatten)[k + i]? := by
      intro i hi
      rw [← List.getElem?_drop, ← hflat, List.getElem?_append_left hi]
    by_cases hend : m.bytes.length ≤ k + seg.length
    · -- the segment reaches the end of the message, so the others are the messages behind it
      rw [List.drop_append, List.drop_eq_nil_of_le hend, List.nil_append] at htail
      have hlen := congrArg List.length hflat
      rw [List.length_append, List.length_drop, List.length_append] at hlen
      obtain ⟨hzero, hsegs'⟩ :=
        ih (fun s hs => hsegs s (List.mem_cons_of_mem _ hs)) (by omega) htail hread
      have hk0 : k = 0 := by
        by_contra hk0
        -- the message is its own rest followed by zeros, so it starts with one
        have hshift : ∀ i < m.bytes.length,
            m.bytes[i]? = if k + i < m.bytes.length then m.bytes[k + i]? else some 0 := by
          intro i hi
          rw [hbyte i hi]
          by_cases hin : i < seg.length
          · rw [if_pos hin, if_pos (by omega), hidx i hin, List.getElem?_append_left (by omega)]
          · rw [if_neg hin, if_neg (by omega)]
        have htwo := m.two_le
        exact SnMessage.head_ne (getElem?_of_shift hk0 hshift (by omega))
      subst hk0
      rw [List.drop_zero] at hflat
      exact ⟨rfl, by rw [(List.append_inj hflat (by omega)).1, hsegs', List.map_cons]⟩
    · -- the next segment starts inside the message, with a zero
      exfalso
      have hfirst : segs.flatten[0]? = some 0 := by
        rw [htail, List.getElem?_drop, List.getElem?_append_left (by omega), hbyte _ (by omega),
          if_neg (by omega)]
      cases segs with
      | nil => simp at hfirst
      | cons seg₂ segs₂ =>
        cases ms with
        | nil => simp at hread
        | cons m₂ ms₂ =>
          rw [List.map_cons, List.map_cons, List.cons.injEq] at hread
          have hseg₂ := hsegs seg₂ (by simp)
          have hpos₂ := List.length_pos_iff.2 hseg₂
          have htwo := m₂.two_le
          rw [List.flatten_cons, List.getElem?_append_left hpos₂] at hfirst
          refine SnMessage.head_ne (m := m₂) ?_
          rw [getElem?_of_read hseg₂ hread.1 (by omega), if_pos hpos₂, hfirst]

theorem readSegment_message (m : SnMessage) : readSegment m.bytes = m.bytes := by
  have htwo := m.two_le
  rw [readSegment, readMessage]
  obtain ⟨b, bs, hb⟩ :=
    List.exists_cons_of_ne_nil (show m.bytes ≠ [] from fun h => by simp [h] at htwo)
  have hlen : b.toNat = m.bytes.length := by rw [← m.length_eq, hb]; rfl
  rw [hb] at hlen ⊢
  rw [List.cons_append, List.headD_cons, hlen, ← List.cons_append, List.take_left]

/-- The messages of a connected client arrive as they were written exactly when every `recv` that
returns data returns one message. -/
theorem messages_received_iff {s : SingleTcpSocket} (hsocket : 0 ≤ s.tcpSocket)
    (hconn : 0 < s.connectionSocket) {calls : List SystemCalls} {ms : List SnMessage}
    (hstream : (segments calls).flatten = (ms.map SnMessage.bytes).flatten) :
    receivedMessages (s.runLoop calls) = ms.map SnMessage.bytes ↔
      segments calls = ms.map SnMessage.bytes := by
  rw [SingleTcpSocket.receivedMessages_runLoop hsocket hconn]
  constructor
  · intro h
    have hne : ∀ seg ∈ segments calls, seg ≠ [] := fun seg hseg => by
      simpa using (List.mem_filter.1 hseg).2
    exact (segments_eq_of_read hne (Nat.zero_le _) (by rw [List.drop_zero]; exact hstream) h).2
  · intro h
    rw [h, List.map_map]
    exact List.map_congr_left fun m _ => readSegment_message m

/-- A `PINGREQ` and a `REGACK`. -/
def ping : SnMessage := ⟨[2, 22], by decide, by decide, by decide⟩
def regack : SnMessage := ⟨[7, 11, 0, 1, 0, 2, 0], by decide, by decide, by decide⟩

def connected : SingleTcpSocket := ⟨3, 4, 0, 0xB822, 2050, true⟩

def received (bytes : List UInt8) (h : bytes.length ≤ 255) : SystemCalls :=
  ⟨-1, -1, -1, 2, -1, ⟨bytes, h⟩⟩

theorem messages_received_iff_apart :
    let calls :=
      [received ping.bytes (by decide), received [] (by decide), received regack.bytes (by decide)]
    receivedMessages (connected.runLoop calls) = [ping.bytes, regack.bytes] := by
  intro calls
  have hstream : (segments calls).flatten = ([ping, regack].map SnMessage.bytes).flatten := by
    decide
  exact (messages_received_iff (by decide) (by decide) hstream).2 (by decide)

/-- Two messages in one segment: the second is lost. -/
theorem messages_received_merged :
    let calls := [received (ping.bytes ++ regack.bytes) (by decide)]
    (segments calls).flatten = ([ping, regack].map SnMessage.bytes).flatten ∧
      receivedMessages (connected.runLoop calls) = [ping.bytes] ∧
      receivedMessages (connected.runLoop calls) ≠ [ping, regack].map SnMessage.bytes := by
  intro calls
  exact ⟨by decide, by decide, by decide⟩

end SnGateway
