import SnGateway.Entries
import SnGateway.Lib.FirstMatch
import SnGateway.Lib.HexText

/-!
# The connections of the BLE socket

`BLESocket` keeps its connections in a map under their MACs. A message is handed over with the
address its MAC stands for, and a reply to an address is sent under the MAC it stands for. The two
conversions are inverse to each other, as long as `strcpy` has room for the terminator behind the 17
characters of `tmp_mac`.
-/

namespace SnGateway
open RecordStore FirstMatch

/-- A connection, known by its `BLEConnection`, and its `bleDeviceMac`. -/
structure BLEConnection where
  pointer : Nat
  mac : List UInt8
deriving DecidableEq

structure BLEMessage where
  mac : List UInt8
  data : List UInt8

namespace BLESocket

def getMacFromDeviceAddress (deviceAddress : DeviceAddress) : List UInt8 :=
  [58].intercalate (deviceAddress.bytes.map fun b => zeroPaddedHex 2 b.toNat)

/-- `%x:%x:%x:%x:%x:%x%c`. -/
def macFormat : List Directive :=
  [.hex, .literal 58, .hex, .literal 58, .hex, .literal 58, .hex, .literal 58, .hex, .literal 58,
    .hex, .char]

/-- `none`: the terminator of `strcpy` lands on something behind `tmp_mac`, where only `slack` bytes
are free, or `sscanf` assigns a value it has no argument for. The error is the exception. `junk` is
what the uninitialised `deviceAddress` holds. -/
def getDeviceAddressFromMac (slack : Nat) (junk : DeviceAddress) (mac : List UInt8) :
    Option (Except (List UInt8) DeviceAddress) :=
  if mac.length ≠ 17 then
    some (.error (ascii "BLESocket::getDeviceAddressFromMac is not 17 characters long"))
  else
    let tmpMac := cstr mac
    if 17 + slack < tmpMac.length + 1 then none
    else
      let values := sscanf macFormat tmpMac
      if 6 < values.length then none
      else if 6 = values.length then some (.ok (Record.fill 6 (values.map UInt8.ofNat)))
      else some (.ok junk)

/-- What is sent on which connections, and the map after that; `alive` are the connections that
still exist. The call returns `true` in any case. -/
def send (alive : BLEConnection → Bool) (bleConnections : List BLEConnection)
    (destination : DeviceAddress) (bytes : List UInt8) :
    Bool × List (BLEConnection × List UInt8) × List BLEConnection :=
  let destinationMac := getMacFromDeviceAddress destination
  match lookup BLEConnection.mac destinationMac bleConnections with
  | none => (true, [], bleConnections)
  | some c =>
    if alive c then (true, [(c, bytes)], bleConnections)
    else (true, [], bleConnections.filter fun c => c.mac ≠ destinationMac)

/-- Data that is too long is dropped. -/
def loop (slack : Nat) (junk : DeviceAddress) :
    List BLEMessage → Option (Except (List UInt8) (List Notice × List BLEMessage))
  | [] => some (.ok ([], []))
  | message :: queue =>
    if 255 < message.data.length then some (.ok ([], queue))
    else
      match getDeviceAddressFromMac slack junk message.mac with
      | none => none
      | some (.error e) => some (.error e)
      | some (.ok deviceAddress) =>
        some (.ok
          ([.receiveData deviceAddress
            (message.data ++ List.replicate (255 - message.data.length) 0)], queue))

/-- `insert` does not replace. -/
def addBLEConnection (bleConnections : List BLEConnection) (c : BLEConnection) :
    List BLEConnection :=
  insertNew BLEConnection.mac bleConnections c

def removeBLEConnection (bleConnections : List BLEConnection) (bleConnectionMac : List UInt8) :
    List BLEConnection :=
  bleConnections.filter fun c => c.mac ≠ bleConnectionMac

/-- `XX:XX:XX:XX:XX:XX` with upper-case hexadecimal digits. -/
def IsMac (mac : List UInt8) : Prop :=
  ∃ pairs : List (Nat × Nat), pairs.length = 6 ∧ (∀ p ∈ pairs, p.1 < 16 ∧ p.2 < 16) ∧
    mac = [58].intercalate (pairs.map pairText)

/-- The conversions are inverse to each other. -/
structure RoundTrips (slack : Nat) : Prop where
  mac : ∀ junk mac, IsMac mac → ∃ address,
    getDeviceAddressFromMac slack junk mac = some (.ok address) ∧
    getMacFromDeviceAddress address = mac
  address : ∀ junk address,
    getDeviceAddressFromMac slack junk (getMacFromDeviceAddress address) = some (.ok address)

/-- What is sent to the address of a message of `c` goes to `c`, the connections having been added
one by one. -/
def Selects (slack : Nat) (connections : List BLEConnection) (c : BLEConnection) : Prop :=
  ∀ junk alive data queue, (∀ d ∈ connections, alive d = true) → data.length ≤ 255 →
    ∃ address buf, loop slack junk (⟨c.mac, data⟩ :: queue) =
    some (.ok ([.receiveData address buf], queue)) ∧
      ∀ bytes, (send alive (connections.foldl addBLEConnection []) address bytes).2.1 = [(c, bytes)]

/-! ### The conversions -/

theorem getMacFromDeviceAddress_eq (address : DeviceAddress) :
    getMacFromDeviceAddress address = [58].intercalate
      ((address.bytes.map bytePair).map pairText) := by
  rw [getMacFromDeviceAddress, List.map_map]
  congr 1
  exact List.map_congr_left fun b _ => zeroPaddedHex_byte b

/-- The address of six pairs of digits. -/
def pairsAddress (pairs : List (Nat × Nat)) : DeviceAddress :=
  Record.fill 6 (pairs.map fun p => UInt8.ofNat (pairValue p))

theorem getDeviceAddressFromMac_joined (slack : Nat) (junk : DeviceAddress)
    {pairs : List (Nat × Nat)} (hsix : pairs.length = 6) (hp : ∀ p ∈ pairs, p.1 < 16 ∧ p.2 < 16) :
    getDeviceAddressFromMac slack junk ([58].intercalate (pairs.map pairText)) =
      if slack = 0 then none else some (.ok (pairsAddress pairs)) := by
  have hne : pairs ≠ [] := fun h => by rw [h] at hsix; cases hsix
  have hlen := length_joined 58 hne
  have hcstr := cstr_eq_self (nul_notMem_joined (show (58 : UInt8) ≠ 0 by decide) hp)
  have hscan := sscanf_joined (show isDigit 16 58 = false by decide) hp
  rw [hsix, show separated 58 6 = macFormat from rfl] at hscan
  rw [hsix] at hlen
  rw [getDeviceAddressFromMac, if_neg (not_not.2 (by omega)), hcstr]
  dsimp only
  rw [hscan]
  by_cases hslack : slack = 0
  · rw [if_pos (by omega), if_pos hslack]
  · rw [if_neg (by omega), List.length_map, hsix, if_neg (by decide), if_pos rfl, if_neg hslack,
      List.map_map]
    rfl

theorem getMacFromDeviceAddress_pairsAddress {pairs : List (Nat × Nat)} (hsix : pairs.length = 6)
    (hp : ∀ p ∈ pairs, p.1 < 16 ∧ p.2 < 16) :
    getMacFromDeviceAddress (pairsAddress pairs) = [58].intercalate (pairs.map pairText) := by
  have hbytes : (pairsAddress pairs).bytes = pairs.map fun p => UInt8.ofNat (pairValue p) :=
    congrArg Record.bytes (Record.fill_bytes ⟨_, by rw [List.length_map, hsix]⟩)
  have hpairs : (pairs.map fun p => UInt8.ofNat (pairValue p)).map bytePair = pairs := by
    rw [List.map_map]
    exact (List.map_congr_left fun p hmem => bytePair_pairValue (hp p hmem)).trans
      (List.map_id pairs)
  rw [getMacFromDeviceAddress_eq, hbytes, hpairs]

theorem pairsAddress_bytePair (address : DeviceAddress) :
    pairsAddress (address.bytes.map bytePair) = address := by
  have hbytes : (address.bytes.map bytePair).map (fun p => UInt8.ofNat (pairValue p)) =
      address.bytes := by
    rw [List.map_map]
    refine (List.map_congr_left fun b _ => ?_).trans (List.map_id _)
    rw [Function.comp_apply, pairValue_bytePair, UInt8.ofNat_toNat]
    rfl
  rw [pairsAddress, hbytes, Record.fill_bytes]

theorem bytePairs_lt (address : DeviceAddress) :
    ∀ p ∈ address.bytes.map bytePair, p.1 < 16 ∧ p.2 < 16 := by
  intro p hp
  obtain ⟨b, -, rfl⟩ := List.mem_map.1 hp
  exact bytePair_lt b

theorem getDeviceAddressFromMac_getMac (slack : Nat) (junk address : DeviceAddress) :
    getDeviceAddressFromMac slack junk (getMacFromDeviceAddress address) =
      if slack = 0 then none else some (.ok address) := by
  rw [getMacFromDeviceAddress_eq, getDeviceAddressFromMac_joined slack junk
    (by rw [List.length_map, address.size_eq])
    (bytePairs_lt address), pairsAddress_bytePair]

theorem roundTrips_iff (slack : Nat) : RoundTrips slack ↔ 1 ≤ slack := by
  constructor
  · intro h
    by_contra hslack
    have haddress := h.address (Record.zero 6) (Record.zero 6)
    rw [getDeviceAddressFromMac_getMac, if_pos (by omega)] at haddress
    cases haddress
  · intro hslack
    refine ⟨fun junk mac hmac => ?_, fun junk address => ?_⟩
    · obtain ⟨pairs, hsix, hp, rfl⟩ := hmac
      refine ⟨pairsAddress pairs, ?_, getMacFromDeviceAddress_pairsAddress hsix hp⟩
      rw [getDeviceAddressFromMac_joined slack junk hsix hp, if_neg (by omega)]
    · rw [getDeviceAddressFromMac_getMac, if_neg (by omega)]

/-! ### Replies -/

theorem lookup_addAll (connections : List BLEConnection) (mac : List UInt8) :
    lookup BLEConnection.mac mac (connections.foldl addBLEConnection []) =
      lookup BLEConnection.mac mac connections :=
  lookup_foldl_insertNew mac [] connections

/-- A removal leaves the other connections where they are. -/
theorem lookup_removeBLEConnection (connections : List BLEConnection)
    (mac bleConnectionMac : List UInt8) :
    lookup BLEConnection.mac mac (removeBLEConnection connections bleConnectionMac) =
      if mac = bleConnectionMac then none else lookup BLEConnection.mac mac connections :=
  lookup_filter_ne mac bleConnectionMac connections

theorem selects_iff {slack : Nat} (hslack : 1 ≤ slack) {connections : List BLEConnection}
    {c : BLEConnection} (hmac : IsMac c.mac) :
    Selects slack connections c ↔ lookup BLEConnection.mac c.mac connections = some c := by
  have htrip := ((roundTrips_iff slack).2 hslack).mac
  constructor
  · intro h
    obtain ⟨address, hget, hback⟩ := htrip (Record.zero 6) c.mac hmac
    obtain ⟨address', buf, hloop, hsend⟩ := h (Record.zero 6) (fun _ => true) [] [] (fun _ _ => rfl)
      (Nat.zero_le _)
    rw [loop, if_neg (by simp), hget] at hloop
    have hnotices := (Prod.mk.inj (Except.ok.inj (Option.some.inj hloop))).1
    obtain rfl : address = address' := (Notice.receiveData.inj (List.cons.inj hnotices).1).1
    have hsend := hsend []
    rw [send, hback, lookup_addAll] at hsend
    cases hfound : lookup BLEConnection.mac c.mac connections with
    | none => rw [hfound] at hsend; cases hsend
    | some d =>
      rw [hfound] at hsend
      obtain rfl : d = c := by simpa using hsend
      rfl
  · intro h junk alive data queue halive hdata
    obtain ⟨address, hget, hback⟩ := htrip junk c.mac hmac
    refine ⟨address, data ++ List.replicate (255 - data.length) 0, ?_, fun bytes => ?_⟩
    · rw [loop, if_neg (Nat.not_lt.2 hdata), hget]
    · rw [send, hback, lookup_addAll, h]
      dsimp only
      rw [if_pos (halive c (mem_of_lookup h))]

/-- The conversions are inverse and every reply goes back to the sender if and only if the
terminator of `strcpy` has room and the connections have MACs of their own. -/
theorem replies_to_sender_iff (slack : Nat) (connections : List BLEConnection)
    (hmac : ∀ c ∈ connections, IsMac c.mac) :
    RoundTrips slack ∧ (∀ c ∈ connections, Selects slack connections c) ↔
      1 ≤ slack ∧ ∀ c ∈ connections, ∀ d ∈ connections, c.mac = d.mac → c = d := by
  rw [roundTrips_iff, ← lookup_self_iff]
  exact and_congr_right fun hslack => forall₂_congr fun c hc => selects_iff hslack (hmac c hc)

def sensor : BLEConnection := ⟨1, ascii "C4:7C:8D:0A:00:FF"⟩
def actuator : BLEConnection := ⟨2, ascii "C4:7C:8D:0A:01:00"⟩

theorem isMac_sensor : IsMac sensor.mac :=
  ⟨[(12, 4), (7, 12), (8, 13), (0, 10), (0, 0), (15, 15)], rfl, by decide, by decide⟩

theorem isMac_actuator : IsMac actuator.mac :=
  ⟨[(12, 4), (7, 12), (8, 13), (0, 10), (0, 1), (0, 0)], rfl, by decide, by decide⟩

theorem replies_to_sender_iff_apart :
    RoundTrips 1 ∧ ∀ c ∈ [sensor, actuator], Selects 1 [sensor, actuator] c := by
  refine (replies_to_sender_iff 1 [sensor, actuator] fun c hc => ?_).2 ⟨le_rfl, by decide⟩
  rcases List.mem_pair.1 hc with rfl | rfl
  · exact isMac_sensor
  · exact isMac_actuator

/-- The 18th byte of the string lands behind the array. -/
theorem mac_overruns_buffer :
    IsMac sensor.mac ∧ getDeviceAddressFromMac 0 (Record.zero 6) sensor.mac = none ∧
      ¬ (RoundTrips 0 ∧ ∀ c ∈ [sensor], Selects 0 [sensor] c) := by
  refine ⟨isMac_sensor, by decide +kernel, fun h => ?_⟩
  exact absurd ((roundTrips_iff 0).1 h.1) (by decide)

end BLESocket

end SnGateway
