import SnGateway.MqttPacket

/-!
# Reading packets from the socket

`IPStack::read` of `linux.cpp` and the readers of `MQTTClient.h` that use it. Only the bytes and the
failing calls of `recv` count, not how the bytes are spread over the calls (`IpStack.events`): a
packet at the start of the stream is read whole, whatever the pieces it comes in
(`readPacket_frame`).
-/

namespace SnGateway

/-- A call of `recv`: it fails, or so many bytes have come. -/
inductive Recv where
  | failed
  | bytes (bs : List UInt8)
deriving DecidableEq

/-- What `recv` will find. When that is used up nothing comes any more, unless the peer has closed
the connection. -/
structure IpStack where
  incoming : List Recv
  closed : Bool
deriving DecidableEq

namespace IpStack

/-- The loop of `read` over the calls of `recv`: whether all bytes came, and what was stored. A call
takes no more than it asks for. On a closed connection `recv` returns 0 for ever. -/
def readFrom (closed : Bool) : Nat → List Recv → Option (Bool × List UInt8 × List Recv)
  | 0, incoming => some (true, [], incoming)
  | _ + 1, [] => if closed then none else some (false, [], [])
  | _ + 1, .failed :: incoming => some (false, [], incoming)
  | len + 1, .bytes bs :: incoming =>
    if bs.length ≤ len + 1 then
      (readFrom closed (len + 1 - bs.length) incoming).map fun (ok, got, incoming) =>
        (ok, bs ++ got, incoming)
    else some (true, bs.take (len + 1), .bytes (bs.drop (len + 1)) :: incoming)

/-- `bytes` is `len` when the loop ends by its condition. -/
def read (len : Nat) (s : IpStack) : Option (Int × List UInt8 × IpStack) :=
  (readFrom s.closed len s.incoming).map fun (ok, got, incoming) =>
    (if ok then len else -1, got, { s with incoming := incoming })

/-- `read` of one character, as `decodePacket` uses it. -/
def getchar (s : IpStack) : Option (Option UInt8 × IpStack) :=
  (s.read 1).map fun (rc, got, s) => (if rc = 1 then got.head? else none, s)

/-- The number of bytes and the value. -/
def decodePacket (s : IpStack) : Option (Nat × Nat × IpStack) := MqttPacket.decode getchar s

/-- `v` was written to the start of `buf`. -/
def store (buf v : List UInt8) : List UInt8 := v ++ buf.drop v.length

/-- `BUFFER_OVERFLOW` of the client. -/
def bufferOverflow : Int := -2

/-- The length of the buffer is `MAX_MQTT_PACKET_SIZE`. The remaining length is put into it as
`encode` writes it. -/
def readPacket (readbuf : List UInt8) (s : IpStack) : Option (Int × List UInt8 × IpStack) := do
  let (rc, got, s) ← s.read 1
  if rc ≠ 1 then some (-1, store readbuf got, s)
  else
    let (_, remLen, s) ← s.decodePacket
    let head := got ++ MqttPacket.encode remLen
    if readbuf.length - head.length < remLen then some (bufferOverflow, store readbuf head, s)
    else
      let (rc, body, s) ← s.read remLen
      let readbuf := store readbuf (head ++ body)
      if 0 < remLen ∧ rc ≠ remLen then some (-1, readbuf, s)
      else some ((MqttHeader.type (readbuf.headD 0) : Int), readbuf, s)

/-- The bytes that come, and where a call fails. -/
def flat : List Recv → List (Option UInt8)
  | [] => []
  | .failed :: incoming => none :: flat incoming
  | .bytes bs :: incoming => bs.map some ++ flat incoming

def events (s : IpStack) : List (Option UInt8) := flat s.incoming

/-- `readFrom`, a byte at a time. -/
def readFlat (closed : Bool) :
    Nat → List (Option UInt8) → Option (Bool × List UInt8 × List (Option UInt8))
  | 0, es => some (true, [], es)
  | _ + 1, [] => if closed then none else some (false, [], [])
  | _ + 1, none :: es => some (false, [], es)
  | len + 1, some b :: es => (readFlat closed len es).map fun (ok, got, es) => (ok, b :: got, es)

variable {closed : Bool} {s : IpStack}

theorem readFlat_append (closed : Bool) (bs : List UInt8) (len : Nat) (es : List (Option UInt8)) :
    readFlat closed (bs.length + len) (bs.map some ++ es) =
      (readFlat closed len es).map fun (ok, got, es) => (ok, bs ++ got, es) := by
  induction bs with
  | nil => simp
  | cons b bs ih =>
    rw [List.length_cons, Nat.add_right_comm, List.map_cons, List.cons_append, readFlat, ih,
      Option.map_map]
    rfl

/-- Only the bytes that come and the calls that fail decide what is read. -/
theorem readFrom_flat (closed : Bool) (len : Nat) (incoming : List Recv) :
    (readFrom closed len incoming).map (fun r => (r.1, r.2.1, flat r.2.2)) = readFlat closed len
      (flat incoming) := by
  induction incoming generalizing len with
  | nil =>
    cases len with
    | zero => rfl
    | succ len => cases closed <;> rfl
  | cons recv incoming ih =>
    cases len with
    | zero => cases recv <;> rfl
    | succ len =>
      cases recv with
      | failed => rfl
      | bytes bs =>
        rw [readFrom, flat]
        split_ifs with hlen
        · have hsplit : len + 1 = bs.length + (len + 1 - bs.length) := by omega
          rw [hsplit, readFlat_append, ← ih, Option.map_map, Option.map_map, ← hsplit]
          rfl
        · have htake : (bs.take (len + 1)).length = len + 1 := by rw [List.length_take]; omega
          have happ :=
            readFlat_append closed (bs.take (len + 1)) 0
              ((bs.drop (len + 1)).map some ++ flat incoming)
          rw [htake, ← List.append_assoc, ← List.map_append, List.take_append_drop] at happ
          rw [happ]
          simp [readFlat, flat]

/-- `read` in terms of the bytes that come. -/
theorem read_eq {len : Nat} (ok : Bool) {got : List UInt8} {es : List (Option UInt8)}
    (h : readFlat s.closed len s.events = some (ok, got, es)) :
    ∃ s' : IpStack, s.read len = some (if ok then (len : Int) else -1, got, s') ∧ s'.events = es ∧
      s'.closed = s.closed := by
  rw [events, ← readFrom_flat, Option.map_eq_some_iff] at h
  obtain ⟨⟨ok', got', incoming⟩, hread, heq⟩ := h
  obtain ⟨rfl, rfl, rfl⟩ : ok' = ok ∧ got' = got ∧ flat incoming = es := by simpa using heq
  exact ⟨{ s with incoming := incoming }, by rw [read, hread]; rfl, rfl, rfl⟩

theorem read_bytes (bs : List UInt8) {es : List (Option UInt8)} (h : s.events = bs.map some ++ es) :
    ∃ s' : IpStack, s.read bs.length = some ((bs.length : Int), bs, s') ∧ s'.events = es ∧
      s'.closed = s.closed := by
  refine read_eq true ?_
  have := readFlat_append s.closed bs 0 es
  rw [h]
  simpa [readFlat] using this

/-- A call that fails before everything has come: the bytes before it are lost. -/
theorem read_failed (bs : List UInt8) {len : Nat} {es : List (Option UInt8)}
    (h : s.events = bs.map some ++ none :: es) (hlen : bs.length < len) :
    ∃ s' : IpStack, s.read len = some (-1, bs, s') ∧ s'.events = es ∧ s'.closed = s.closed := by
  obtain ⟨k, rfl⟩ : ∃ k, len = bs.length + (k + 1) := ⟨len - bs.length - 1, by omega⟩
  refine read_eq false ?_
  rw [h, readFlat_append]
  simp [readFlat]

theorem read_nothing (bs : List UInt8) {len : Nat} (h : s.events = bs.map some)
    (hlen : bs.length < len) :
    (s.closed = true → s.read len = none) ∧
      (s.closed = false → ∃ s' : IpStack, s.read len = some (-1, bs, s') ∧ s'.events = [] ∧
        s'.closed = s.closed) := by
  obtain ⟨k, rfl⟩ : ∃ k, len = bs.length + (k + 1) := ⟨len - bs.length - 1, by omega⟩
  have hflat := readFlat_append s.closed bs (k + 1) []
  rw [List.append_nil, ← h] at hflat
  constructor
  · intro hclosed
    rw [hclosed] at hflat
    have hfrom := readFrom_flat true (bs.length + (k + 1)) s.incoming
    rw [← events, hflat] at hfrom
    rw [read, hclosed, Option.map_eq_none_iff.1 hfrom]
    rfl
  · intro hclosed
    refine read_eq false ?_
    rw [hflat, hclosed]
    simp [readFlat]

/-! ### Packets -/

theorem gives_getchar {bs : List UInt8} {es : List (Option UInt8)}
    (h : s.events = bs.map some ++ es) :
    ∃ s' : IpStack, MqttPacket.Gives getchar s bs s' ∧ s'.events = es ∧ s'.closed = s.closed := by
  induction bs generalizing s with
  | nil => exact ⟨s, rfl, h, rfl⟩
  | cons b bs ih =>
    obtain ⟨t, hread, hevents, hclosed⟩ := read_bytes [b] h
    obtain ⟨s', hgives, hevents', hclosed'⟩ := ih hevents
    refine ⟨s', ⟨t, ?_, hgives⟩, hevents', hclosed'.trans hclosed⟩
    rw [getchar, show s.read 1 = _ from hread]
    rfl

/-- The header byte and the remaining length of a packet at the start of the stream. -/
theorem read_head {f : MqttFrame} {es : List (Option UInt8)} (h : s.events = f.bytes.map some ++ es)
    (hf : f.body.length < 128 ^ 4) :
    ∃ s₁ s₂ : IpStack, s.read 1 = some (1, [f.header], s₁) ∧
      s₁.decodePacket = some ((MqttPacket.encode f.body.length).length, f.body.length, s₂) ∧
      s₂.events = f.body.map some ++ es ∧ s₂.closed = s.closed := by
  rw [MqttFrame.bytes, List.map_cons, List.cons_append, List.map_append, List.append_assoc] at h
  obtain ⟨s₁, hheader, hevents₁, hclosed₁⟩ := read_bytes [f.header] h
  obtain ⟨s₂, hgives, hevents₂, hclosed₂⟩ := gives_getchar hevents₁
  exact ⟨s₁, s₂, hheader, MqttPacket.decode_gives hgives hf, hevents₂, hclosed₂.trans hclosed₁⟩

theorem length_head (f : MqttFrame) :
    ([f.header] ++ MqttPacket.encode f.body.length).length =
      1 + (MqttPacket.encode f.body.length).length := by
  rw [List.length_append, List.length_singleton]

/-- A packet at the start of the stream is read whole. -/
theorem readPacket_frame {readbuf : List UInt8} {f : MqttFrame} {es : List (Option UInt8)}
    (h : s.events = f.bytes.map some ++ es) (hfits : f.bytes.length ≤ readbuf.length)
    (hf : f.body.length < 128 ^ 4) :
    ∃ s' : IpStack, readPacket readbuf s = some ((f.type : Int), store readbuf f.bytes, s') ∧
      s'.events = es ∧ s'.closed = s.closed := by
  rw [MqttFrame.length_bytes] at hfits
  obtain ⟨s₁, s₂, hheader, hdecode, hevents₂, hclosed₂⟩ := read_head h hf
  obtain ⟨s₃, hbody, hevents₃, hclosed₃⟩ := read_bytes f.body hevents₂
  refine ⟨s₃, ?_, hevents₃, hclosed₃.trans hclosed₂⟩
  simp only [readPacket, hheader, Option.bind_eq_bind, Option.bind_some, hdecode, hbody]
  rw [if_neg (by simp), if_neg (by rw [length_head]; omega), if_neg (by simp), List.append_assoc]
  rfl

/-- A packet that is too long for the buffer: what is behind its length is left to be read as
packets. -/
theorem readPacket_overflow {readbuf : List UInt8} {f : MqttFrame} {es : List (Option UInt8)}
    (h : s.events = f.bytes.map some ++ es) (hlong : readbuf.length < f.bytes.length)
    (hf : f.body.length < 128 ^ 4) (hbuf : 5 ≤ readbuf.length) :
    ∃ s' : IpStack, readPacket readbuf s = some (bufferOverflow,
        store readbuf (f.header :: MqttPacket.encode f.body.length), s') ∧
      s'.events = f.body.map some ++ es ∧ s'.closed = s.closed := by
  rw [MqttFrame.length_bytes] at hlong
  have hdigits := MqttPacket.length_encode_le (k := 3) hf
  obtain ⟨s₁, s₂, hheader, hdecode, hevents₂, hclosed₂⟩ := read_head h hf
  refine ⟨s₂, ?_, hevents₂, hclosed₂⟩
  simp only [readPacket, hheader, Option.bind_eq_bind, Option.bind_some, hdecode]
  rw [if_neg (by simp), if_pos (by rw [length_head]; omega)]
  rfl

theorem readPacket_failed {es : List (Option UInt8)} (h : s.events = none :: es)
    (readbuf : List UInt8) :
    ∃ s' : IpStack, readPacket readbuf s = some (-1, readbuf, s') ∧ s'.events = es ∧
      s'.closed = s.closed := by
  obtain ⟨s', hread, hevents, hclosed⟩ := read_failed [] h Nat.one_pos
  refine ⟨s', ?_, hevents, hclosed⟩
  simp only [readPacket, hread, Option.bind_eq_bind, Option.bind_some]
  rw [if_pos (by simp)]
  rfl

/-- Behind the end of the stream nothing is read, and a connection that the peer has closed keeps
the reader for ever. -/
theorem readPacket_nothing (h : s.events = []) (readbuf : List UInt8) :
    (s.closed = true → readPacket readbuf s = none) ∧
      (s.closed = false →
        ∃ s' : IpStack, readPacket readbuf s = some (-1, readbuf, s') ∧ s'.events = [] ∧
        s'.closed = s.closed) := by
  obtain ⟨hnone, hsome⟩ := read_nothing [] h Nat.one_pos
  constructor
  · intro hclosed
    rw [readPacket, hnone hclosed]
    rfl
  · intro hclosed
    obtain ⟨s', hread, hevents, hclosed'⟩ := hsome hclosed
    refine ⟨s', ?_, hevents, hclosed'⟩
    simp only [readPacket, hread, Option.bind_eq_bind, Option.bind_some]
    rw [if_pos (by simp)]
    rfl

/-! ### The buffer -/

theorem length_readFrom_le {len : Nat} {incoming : List Recv} {r : Bool × List UInt8 × List Recv}
    (h : readFrom closed len incoming = some r) : r.2.1.length ≤ len := by
  induction incoming generalizing len r with
  | nil =>
    cases len with
    | zero => cases h; exact Nat.le_refl 0
    | succ len =>
      rw [readFrom] at h
      split_ifs at h
      cases h
      exact Nat.zero_le _
  | cons recv incoming ih =>
    cases len with
    | zero => cases recv <;> (cases h; exact Nat.le_refl 0)
    | succ len =>
      cases recv with
      | failed => cases h; exact Nat.zero_le _
      | bytes bs =>
        rw [readFrom] at h
        split_ifs at h
        · obtain ⟨r', hr', rfl⟩ := Option.map_eq_some_iff.1 h
          have := ih hr'
          show (bs ++ r'.2.1).length ≤ len + 1
          rw [List.length_append]
          omega
        · cases h
          rw [List.length_take]
          omega

theorem length_read_le {len : Nat} {r : Int × List UInt8 × IpStack} (h : s.read len = some r) :
    r.2.1.length ≤ len := by
  obtain ⟨r', hr', rfl⟩ := Option.map_eq_some_iff.1 h
  exact length_readFrom_le hr'

theorem length_store {buf v : List UInt8} (h : v.length ≤ buf.length) :
    (store buf v).length = buf.length := by
  rw [store, List.length_append, List.length_drop]
  omega

/-- Nothing is written behind the end of the buffer. -/
theorem length_readPacket {readbuf : List UInt8} {r : Int × List UInt8 × IpStack}
    (hbuf : 5 ≤ readbuf.length) (h : readPacket readbuf s = some r) :
    r.2.1.length = readbuf.length := by
  simp only [readPacket, Option.bind_eq_bind, Option.bind_eq_some_iff] at h
  obtain ⟨⟨rc, got, s₁⟩, hread, h⟩ := h
  have hgot : got.length ≤ 1 := length_read_le hread
  split_ifs at h
  · cases h
    exact length_store (hgot.trans (by omega))
  obtain ⟨⟨k, remLen, s₂⟩, hdecode, h⟩ := Option.bind_eq_some_iff.1 h
  have hdigits := MqttPacket.length_encode_le (k := 3) (MqttPacket.decode_lt hdecode)
  have hhead : (got ++ MqttPacket.encode remLen).length ≤ readbuf.length := by
    rw [List.length_append]
    dsimp only at hdigits
    omega
  dsimp only at h
  split_ifs at h with hover
  · cases h
    exact length_store hhead
  obtain ⟨⟨rc', body, s₃⟩, hbody, h⟩ := Option.bind_eq_some_iff.1 h
  have hlen := length_read_le hbody
  have hall : (got ++ MqttPacket.encode remLen ++ body).length ≤ readbuf.length := by
    rw [List.length_append]
    dsimp only at hlen
    omega
  dsimp only at h
  split_ifs at h <;> (cases h; exact length_store hall)

end IpStack

end SnGateway
