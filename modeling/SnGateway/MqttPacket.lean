import SnGateway.Lib.Varint
import SnGateway.Lib.Record

/-!
# The parts of an MQTT packet

`MQTTPacket.c`: the header byte, the remaining length, numbers of two bytes and strings. Writing
appends to the bytes before it; reading goes by two pointers, `curdata` and `enddata`, that need not
be in order (`Cursor`). A read behind the end of the buffer has no defined result (`none`).
-/

namespace SnGateway
open RecordStore

/-- `enum msgTypes`. -/
inductive MsgType where
  | connect | connack | publish | puback | pubrec | pubrel | pubcomp | subscribe | suback |
      unsubscribe | unsuback
  | pingreq | pingresp | disconnect
deriving DecidableEq

def MsgType.code : MsgType → Nat
  | connect => 1
  | connack => 2
  | publish => 3
  | puback => 4
  | pubrec => 5
  | pubrel => 6
  | pubcomp => 7
  | subscribe => 8
  | suback => 9
  | unsubscribe => 10
  | unsuback => 11
  | pingreq => 12
  | pingresp => 13
  | disconnect => 14

theorem MsgType.code_injective : Function.Injective MsgType.code := fun a b h => by
  cases a <;> cases b <;> first | rfl | cases h

/-- `MQTTPACKET_BUFFER_TOO_SHORT`. -/
def bufferTooShort : Int := -2

/-! ### The header byte -/

namespace MqttHeader

/-- The bit fields, each cut to its width. -/
def byte (type dup qos retain : Nat) : UInt8 :=
  UInt8.ofNat (type % 16 * 16 + dup % 2 * 8 + qos % 4 * 2 + retain % 2)

def type (b : UInt8) : Nat := b.toNat / 16
def dup (b : UInt8) : Nat := b.toNat / 8 % 2
def qos (b : UInt8) : Nat := b.toNat / 2 % 4
def retain (b : UInt8) : Nat := b.toNat % 2

theorem toNat_byte (t d q r : Nat) :
    (byte t d q r).toNat = t % 16 * 16 + d % 2 * 8 + q % 4 * 2 + r % 2 :=
  UInt8.toNat_ofNat_of_lt' (by show _ < 256; omega)

@[simp] theorem type_byte (t d q r : Nat) : type (byte t d q r) = t % 16 := by
  rw [type, toNat_byte]
  omega
@[simp] theorem dup_byte (t d q r : Nat) : dup (byte t d q r) = d % 2 := by
  rw [dup, toNat_byte]
  omega
@[simp] theorem qos_byte (t d q r : Nat) : qos (byte t d q r) = q % 4 := by
  rw [qos, toNat_byte]
  omega
@[simp] theorem retain_byte (t d q r : Nat) : retain (byte t d q r) = r % 2 := by
  rw [retain, toNat_byte]
  omega

end MqttHeader

/-- `MQTTString`: a C string, or a number of bytes behind a pointer. -/
structure MqttString where
  cstring : Option (List UInt8)
  len : Nat
  data : Option (List UInt8)
deriving DecidableEq

/-- `MQTTString_initializer`. -/
def MqttString.initializer : MqttString := ⟨none, 0, none⟩

/-- `MQTTstrlen`. -/
def MqttString.strlen (s : MqttString) : Nat :=
  match s.cstring with
  | some text => (cstr text).length
  | none => s.len

/-- `enddata - curdata` may be negative. -/
structure Cursor where
  data : List UInt8
  left : Int
deriving DecidableEq

namespace MqttPacket

/-- The first digit is written in any case. -/
def encode (length : Nat) : List UInt8 :=
  if 0 < length / 128 then
    UInt8.ofNat (length % 128 + 128) :: encode (length / 128)
  else [UInt8.ofNat (length % 128)]

/-- `MQTTPacket_decode` with `left` more bytes allowed: how many were asked for, and the value so
far. What `getcharfn` does is defined or not, and it reads a character or not. -/
def decodeFrom {σ : Type} (getcharfn : σ → Option (Option UInt8 × σ)) :
    (left multiplier value : Nat) → σ → Option (Nat × Nat × σ)
  | 0, _, value, s => some (1, value, s)
  | left + 1, multiplier, value, s =>
    match getcharfn s with
    | none => none
    | some (none, s) => some (1, value, s)
    | some (some c, s) =>
      let value := value + c.toNat % 128 * multiplier
      if c.toNat < 128 then some (1, value, s)
      else (decodeFrom getcharfn left (multiplier * 128) value s).map fun r => (r.1 + 1, r.2)

/-- `MAX_NO_OF_REMAINING_LENGTH_BYTES` is 4. -/
def decode {σ : Type} (getcharfn : σ → Option (Option UInt8 × σ)) (s : σ) :
    Option (Nat × Nat × σ) :=
  decodeFrom getcharfn 4 1 0 s

/-- Always a character, as long as `bufptr` is inside of the buffer. -/
def bufchar : List UInt8 → Option (Option UInt8 × List UInt8)
  | [] => none
  | c :: bufptr => some (some c, bufptr)

/-- `MQTTPacket_decodeBuf`: the number of bytes and the value. -/
def decodeBuf (buf : List UInt8) : Option (Nat × Nat) :=
  (decode bufchar buf).map fun r => (r.1, r.2.1)

/-- `MQTTPacket_len`. -/
def len (remLen : Nat) : Nat :=
  if remLen + 1 < 128 then remLen + 2
  else if remLen + 1 < 16384 then remLen + 3
  else if remLen + 1 < 2097151 then remLen + 4
  else remLen + 5

def writeInt (anInt : Nat) : List UInt8 := [UInt8.ofNat (anInt / 256), UInt8.ofNat (anInt % 256)]

def writeCString (string : List UInt8) : List UInt8 := writeInt (cstr string).length ++ cstr string

def writeMqttString (s : MqttString) : List UInt8 :=
  if 0 < s.len then writeInt s.len ++ (s.data.getD []).take s.len
  else
    match s.cstring with
    | some text => writeCString text
    | none => writeInt 0

def readChar (c : Cursor) : Option (UInt8 × Cursor) :=
  match c.data with
  | b :: rest => some (b, ⟨rest, c.left - 1⟩)
  | [] => none

def readInt (c : Cursor) : Option (Nat × Cursor) :=
  match c.data with
  | a :: b :: rest => some (256 * a.toNat + b.toNat, ⟨rest, c.left - 2⟩)
  | _ => none

/-- The length is stored also where the string does not fit. -/
def readMqttLenString (s : MqttString) (c : Cursor) : Option (Bool × MqttString × Cursor) :=
  if c.left ≤ 1 then some (false, { s with cstring := none }, c)
  else
    match readInt c with
    | none => none
    | some (n, c) =>
      if (n : Int) ≤ c.left then
        if c.data.length < n then
          none
        else some (true, ⟨none, n, some (c.data.take n)⟩, ⟨c.data.drop n, c.left - n⟩)
      else some (false, ⟨none, n, s.data⟩, c)

/-- `MQTTPacket_equals`; `none` is a comparison behind a null pointer. -/
def equals (a : MqttString) (b : List UInt8) : Option Bool :=
  let blen := (cstr b).length
  match a.cstring with
  | some text => some (cstr text = cstr b)
  | none =>
    if a.len ≠ blen then some false
    else
      match a.data with
      | some data => some (data.take a.len = cstr b)
      | none => if blen = 0 then some true else none

/-! ### The remaining length -/

theorem encode_of_lt {n : Nat} (h : n < 128) : encode n = [UInt8.ofNat n] := by
  rw [encode, if_neg (by omega), Nat.mod_eq_of_lt h]

theorem encode_of_ge {n : Nat} (h : 128 ≤ n) :
    encode n = UInt8.ofNat (n % 128 + 128) :: encode (n / 128) := by
  rw [encode, if_pos (by omega)]

theorem toNat_ofNat_of_lt {n : Nat} (h : n < 256) : (UInt8.ofNat n).toNat = n :=
  UInt8.toNat_ofNat_of_lt' h

theorem closed_encode (n : Nat) : Varint.Closed (encode n) := by
  induction n using encode.induct with
  | case1 n hn ih =>
    rwa [encode_of_ge (by omega),
      Varint.closed_cons_of_ge (by rw [toNat_ofNat_of_lt (by omega)]; omega)]
  | case2 n hn =>
    rw [encode_of_lt (by omega),
      Varint.closed_cons_of_lt (by rw [toNat_ofNat_of_lt (by omega)]; omega)]

theorem value_encode (n : Nat) : Varint.value (encode n) = n := by
  induction n using encode.induct with
  | case1 n hn ih =>
    rw [encode_of_ge (by omega), Varint.value, ih, toNat_ofNat_of_lt (by omega)]; omega
  | case2 n hn =>
    rw [encode_of_lt (by omega), Varint.value, Varint.value, toNat_ofNat_of_lt (by omega)]; omega

/-- `k` bytes are enough for the numbers below `128 ^ k`. -/
theorem length_encode_le {n k : Nat} (h : n < 128 ^ (k + 1)) : (encode n).length ≤ k + 1 := by
  induction k generalizing n with
  | zero => rw [encode_of_lt (by omega)]; exact Nat.le_refl 1
  | succ k ih =>
    by_cases hn : n < 128
    · rw [encode_of_lt hn]; exact Nat.le_add_left 1 (k + 1)
    · rw [encode_of_ge (by omega), List.length_cons]
      rw [Nat.pow_succ] at h
      exact Nat.succ_le_succ (ih (Nat.div_lt_of_lt_mul (by rwa [Nat.mul_comm])))

theorem lt_of_length_encode_le {n k : Nat} (h : (encode n).length ≤ k) : n < 128 ^ k := by
  have := Varint.value_lt (encode n)
  rw [value_encode] at this
  exact this.trans_le (Nat.pow_le_pow_right (by omega) h)

theorem length_encode_le_iff {n k : Nat} : (encode n).length ≤ k + 1 ↔ n < 128 ^ (k + 1) :=
  ⟨lt_of_length_encode_le, length_encode_le⟩

/-- `MQTTPacket_len` counts the header byte, the remaining length and the bytes it stands for, and
one more where the header byte makes the number look too long for its groups. -/
theorem len_eq {n : Nat} (h : n < 128 ^ 4) :
    len n = 1 + (encode n).length + n + if n ∈ [127, 16383, 2097150, 2097151] then 1 else 0 := by
  have hpos := (closed_encode n).length_pos
  have h1 := length_encode_le_iff (n := n) (k := 0)
  have h2 := length_encode_le_iff (n := n) (k := 1)
  have h3 := length_encode_le_iff (n := n) (k := 2)
  have h4 := length_encode_le_iff (n := n) (k := 3)
  simp only [Nat.reduceAdd, Nat.reducePow] at h h1 h2 h3 h4
  simp only [List.mem_cons, List.not_mem_nil, or_false, len]
  split_ifs <;> omega

/-- `getcharfn` gives the bytes `bs` one after the other. -/
def Gives {σ : Type} (getcharfn : σ → Option (Option UInt8 × σ)) : σ → List UInt8 → σ → Prop
  | s, [], s' => s = s'
  | s, b :: bs, s' => ∃ t, getcharfn s = some (some b, t) ∧ Gives getcharfn t bs s'

theorem decodeFrom_gives {σ : Type} {getcharfn : σ → Option (Option UInt8 × σ)} {s s' : σ}
    {bs : List UInt8} {left : Nat} (hgives : Gives getcharfn s bs s') (hclosed : Varint.Closed bs)
    (hlen : bs.length ≤ left) (multiplier value : Nat) :
    decodeFrom getcharfn left multiplier value s =
      some (bs.length, value + multiplier * Varint.value bs, s') := by
  induction bs generalizing s left multiplier value with
  | nil => exact hclosed.elim
  | cons b bs ih =>
    obtain ⟨t, hget, hgives⟩ := hgives
    obtain ⟨left, rfl⟩ : ∃ k, left = k + 1 := ⟨left - 1, by rw [List.length_cons] at hlen; omega⟩
    simp only [decodeFrom, hget, Varint.value]
    by_cases hb : b.toNat < 128
    · rw [Varint.closed_cons_of_lt hb] at hclosed
      subst hclosed
      rw [if_pos hb, show t = s' from hgives]
      simp only [Varint.value, List.length_cons, List.length_nil, Option.some.injEq, Prod.mk.injEq,
        true_and, and_true]
      ring
    · rw [Varint.closed_cons_of_ge (by omega)] at hclosed
      rw [if_neg hb, ih hgives hclosed (by rw [List.length_cons] at hlen; omega)]
      simp only [Option.map_some, List.length_cons, Option.some.injEq, Prod.mk.injEq,
        true_and, and_true]
      ring

theorem decode_gives {σ : Type} {getcharfn : σ → Option (Option UInt8 × σ)} {s s' : σ} {n : Nat}
    (hgives : Gives getcharfn s (encode n) s') (hn : n < 128 ^ 4) :
    decode getcharfn s = some ((encode n).length, n, s') := by
  rw [decode, decodeFrom_gives hgives (closed_encode n) (length_encode_le hn), value_encode,
    Nat.zero_add, Nat.one_mul]

/-- No more digits are read than are allowed. -/
theorem decodeFrom_le {σ : Type} {getcharfn : σ → Option (Option UInt8 × σ)}
    {left multiplier value : Nat} {s : σ} {r : Nat × Nat × σ}
    (h : decodeFrom getcharfn left multiplier value s = some r) :
    r.2.1 + multiplier ≤ value + multiplier * 128 ^ left := by
  induction left generalizing multiplier value s r with
  | zero => cases h; show value + multiplier ≤ value + multiplier * 1; omega
  | succ left ih =>
    have hpow : multiplier * 1 ≤ multiplier * 128 ^ left :=
      Nat.mul_le_mul_left _ (Nat.pow_pos (by omega))
    have hnext : multiplier * 128 ^ (left + 1) = 128 * (multiplier * 128 ^ left) := by
      rw [Nat.pow_succ]
      ring
    rw [decodeFrom] at h
    match hget : getcharfn s, h with
    | some (none, _), h => cases h; show value + multiplier ≤ _; omega
    | some (some c, t), h =>
      have hdigit : c.toNat % 128 * multiplier + multiplier ≤ 128 * multiplier := by
        have hc := Nat.mod_lt c.toNat (show 0 < 128 by omega)
        calc c.toNat % 128 * multiplier + multiplier = (c.toNat % 128 + 1) * multiplier := by ring
          _ ≤ 128 * multiplier := Nat.mul_le_mul_right _ hc
      dsimp only at h
      split_ifs at h
      · cases h
        show value + c.toNat % 128 * multiplier + multiplier ≤ _
        omega
      · obtain ⟨r', hr', rfl⟩ := Option.map_eq_some_iff.1 h
        have hle := ih hr'
        rw [show multiplier * 128 * 128 ^ left = 128 * (multiplier * 128 ^ left) by ring] at hle
        show r'.2.1 + multiplier ≤ _
        omega

theorem decode_lt {σ : Type} {getcharfn : σ → Option (Option UInt8 × σ)} {s : σ} {r : Nat × Nat × σ}
    (h : decode getcharfn s = some r) : r.2.1 < 128 ^ 4 := by
  have := decodeFrom_le h
  omega

theorem gives_bufchar (bs rest : List UInt8) : Gives bufchar (bs ++ rest) bs rest := by
  induction bs with
  | nil => rfl
  | cons b bs ih => exact ⟨bs ++ rest, rfl, ih⟩

theorem decodeBuf_encode {n : Nat} (hn : n < 128 ^ 4) (rest : List UInt8) :
    decodeBuf (encode n ++ rest) = some ((encode n).length, n) := by
  rw [decodeBuf, decode_gives (gives_bufchar (encode n) rest) hn, Option.map_some]

/-! ### Numbers and strings -/

@[simp] theorem length_writeInt (n : Nat) : (writeInt n).length = 2 := rfl

@[simp] theorem readChar_cons (b : UInt8) (rest : List UInt8) (left : Int) :
    readChar ⟨b :: rest, left⟩ = some (b, ⟨rest, left - 1⟩) := rfl

@[simp] theorem readInt_writeInt {n : Nat} (hn : n < 2 ^ 16) (rest : List UInt8) (left : Int) :
    readInt ⟨writeInt n ++ rest, left⟩ = some (n, ⟨rest, left - 2⟩) := by
  show some (256 * (UInt8.ofNat (n / 256)).toNat + (UInt8.ofNat (n % 256)).toNat,
    Cursor.mk rest (left - 2)) = _
  rw [toNat_ofNat_of_lt (by omega), toNat_ofNat_of_lt (by omega), Nat.div_add_mod]

theorem writeInt_inj {m n : Nat} (hm : m < 2 ^ 16) (hn : n < 2 ^ 16) (h : writeInt m = writeInt n) :
    m = n := by
  have hread := readInt_writeInt hm [] 0
  rw [h, readInt_writeInt hn, Option.some.injEq, Prod.mk.injEq] at hread
  exact hread.1.symm

/-- A string behind its length. -/
def lenString (text : List UInt8) : List UInt8 := writeInt text.length ++ text

theorem length_lenString (text : List UInt8) : (lenString text).length = text.length + 2 := by
  rw [lenString, List.length_append, length_writeInt, Nat.add_comm]

/-- `readMqttLenString` gives back a string that is as long as its length says. -/
theorem readMqttLenString_lenString {text : List UInt8} (htext : text.length < 2 ^ 16)
    (s : MqttString) (rest : List UInt8) (left : Int) (hleft : text.length + 2 ≤ left) :
    readMqttLenString s ⟨lenString text ++ rest, left⟩ =
      some (true, ⟨none, text.length, some text⟩, ⟨rest, left - (text.length + 2)⟩) := by
  rw [lenString, List.append_assoc, readMqttLenString, if_neg (show ¬ left ≤ 1 by omega),
    readInt_writeInt htext]
  simp only
  rw [if_pos (by omega), if_neg (by rw [List.length_append]; omega), List.take_left, List.drop_left]
  simp only [Option.some.injEq, Prod.mk.injEq, Cursor.mk.injEq, true_and]
  omega

theorem readMqttLenString_short {body : List UInt8} (h : body.length < 2) (s : MqttString)
    (stale : List UInt8) :
    readMqttLenString s ⟨body ++ stale, body.length⟩ = some (false, { s with cstring := none },
      ⟨body ++ stale, body.length⟩) := by
  rw [readMqttLenString, if_pos (by dsimp only; omega)]

theorem readMqttLenString_long {n : Nat} {tail : List UInt8} (hn : n < 2 ^ 16) (h : tail.length < n)
    (s : MqttString) (stale : List UInt8) :
    readMqttLenString s ⟨writeInt n ++ tail ++ stale, (writeInt n ++ tail).length⟩ =
      some (false, ⟨none, n, s.data⟩, ⟨tail ++ stale, tail.length⟩) := by
  rw [List.append_assoc, List.length_append, length_writeInt, readMqttLenString,
    if_neg (by dsimp only; omega), readInt_writeInt hn]
  simp only
  rw [if_neg (by omega)]
  simp only [Option.some.injEq, Prod.mk.injEq, Cursor.mk.injEq, true_and]
  omega

/-- Bytes start with a string, or they are too short for its length or for the string itself. -/
theorem lenString_cases (body : List UInt8) :
    (∃ text tail, text.length < 2 ^ 16 ∧ body = lenString text ++ tail) ∨ body.length < 2 ∨
      ∃ n tail, n < 2 ^ 16 ∧ tail.length < n ∧ body = writeInt n ++ tail := by
  match body with
  | [] | [_] => exact .inr (.inl (by simp))
  | a :: b :: tail =>
    have ha := a.toNat_lt
    have hb := b.toNat_lt
    have hint : writeInt (256 * a.toNat + b.toNat) = [a, b] := by
      rw [writeInt, show (256 * a.toNat + b.toNat) / 256 = a.toNat by omega,
        show (256 * a.toNat + b.toNat) % 256 = b.toNat by omega, UInt8.ofNat_toNat,
          UInt8.ofNat_toNat]
    by_cases hlen : 256 * a.toNat + b.toNat ≤ tail.length
    · refine .inl ⟨tail.take (256 * a.toNat + b.toNat), tail.drop (256 * a.toNat + b.toNat), ?_, ?_⟩
      · rw [List.length_take]; omega
      · rw [lenString, List.length_take, Nat.min_eq_left hlen, hint, List.append_assoc,
          List.take_append_drop]
        rfl
    · exact .inr (.inr ⟨256 * a.toNat + b.toNat, tail, by omega, by omega, by rw [hint]; rfl⟩)

end MqttPacket

/-- The text that is written for a string. -/
def MqttString.text (s : MqttString) : List UInt8 :=
  if 0 < s.len then (s.data.getD []).take s.len else (s.cstring.map cstr).getD []

/-- Not both a C string and a length, and as many bytes as the length says. -/
structure MqttString.Valid (s : MqttString) : Prop where
  one : s.cstring = none ∨ s.len = 0
  data : s.len ≤ (s.data.getD []).length

/-- A packet as it stands on the wire: the header byte, the remaining length and that many bytes. -/
structure MqttFrame where
  header : UInt8
  body : List UInt8
deriving DecidableEq

namespace MqttFrame

def bytes (f : MqttFrame) : List UInt8 := f.header :: (MqttPacket.encode f.body.length ++ f.body)

def type (f : MqttFrame) : Nat := MqttHeader.type f.header

theorem length_bytes (f : MqttFrame) :
    f.bytes.length = 1 + (MqttPacket.encode f.body.length).length + f.body.length := by
  rw [bytes, List.length_cons, List.length_append]
  omega

end MqttFrame

namespace MqttString
variable {s : MqttString}

theorem length_text (h : s.Valid) : s.text.length = s.strlen := by
  unfold text strlen
  by_cases hpos : 0 < s.len
  · have hnone : s.cstring = none := h.one.resolve_right (by omega)
    rw [if_pos hpos, hnone, List.length_take, Nat.min_eq_left h.data]
  · rw [if_neg hpos]
    cases hc : s.cstring with
    | some text => rfl
    | none => exact (Nat.eq_zero_of_not_pos hpos).symm

theorem writeMqttString_eq (h : s.Valid) :
    MqttPacket.writeMqttString s = MqttPacket.lenString s.text := by
  unfold MqttPacket.writeMqttString MqttPacket.lenString text
  by_cases hpos : 0 < s.len
  · rw [if_pos hpos, if_pos hpos, List.length_take, Nat.min_eq_left h.data]
  · rw [if_neg hpos, if_neg hpos]
    cases s.cstring with
    | some text => rfl
    | none => rfl

theorem valid_cstring (text : List UInt8) : MqttString.Valid ⟨some text, 0, none⟩ :=
  ⟨.inr rfl, Nat.le_refl 0⟩

end MqttString

end SnGateway
