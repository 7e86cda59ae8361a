import SnGateway.Configuration

/-!
# The readers of addresses

Three readers store an address, each in a member of its own. `readBroadcastAddress` and
`readSendAddress` clear it on every way out but the good one. `readOwnAddress` forgets to where its
line ends early: the numbers it has stored remain, and `from_address` is cleared in their place.
-/

namespace SnGateway
open RecordStore SerialSocket

inductive AddressReader where
  | readOwnAddress
  | readBroadcastAddress
  | readSendAddress
deriving DecidableEq

namespace AddressReader

def read : AddressReader → ConfiguredSocket → Option ConfiguredSocket
  | readOwnAddress, s => s.readOwnAddress.map Prod.snd
  | readBroadcastAddress, s => s.readBroadcastAddress.map Prod.snd
  | readSendAddress, s => s.readSendAddress

def keyword : AddressReader → List UInt8
  | readOwnAddress => ascii "OWN_ADDRESS"
  | readBroadcastAddress => ascii "BROADCAST_ADDRESS"
  | readSendAddress => ascii "ADDRESS"

/-- The member the reader is responsible for. -/
def address : AddressReader → ConfiguredSocket → DeviceAddress
  | readOwnAddress, s => s.ownAddress
  | readBroadcastAddress, s => s.broadcastAddress
  | readSendAddress, s => s.fromAddress

/-- The six numbers of a well-formed line, or zeros, and nothing else is touched. -/
structure AllOrNothing (r : AddressReader) (l : Line) (s s' : ConfiguredSocket) : Prop where
  stored : (∃ numbers, ∃ h : numbers.length = 6,
    lineNumbers r.keyword l.chars = some numbers ∧ r.address s' = ⟨numbers, h⟩) ∨
    r.address s' = Record.zero 6
  others : ∀ r', r' ≠ r → r'.address s' = r'.address s

/-- The numbers are behind the keyword itself, and none of them behind a NUL. -/
def Exact (r : AddressReader) (l : Line) : Prop :=
  0 ∉ l.chars ∧ (l.chars.splitOn 32).head? = some r.keyword

/-- The lines that the reader handles as it should. The buffer holds the line; six numbers that are
not all 0 are exact; and where `readOwnAddress` finds fewer numbers, there is nothing to see of them
or of the wrong `memset`. -/
structure Regular (r : AddressReader) (l : Line) (s : ConfiguredSocket) : Prop where
  fits : l.text.length < LINE_BUFFER_SIZE
  exact_of_six : ∀ numbers, readNumbers r.keyword l.chars = some numbers → numbers.length = 6 →
    numbers ≠ List.replicate 6 0 → r.Exact l
  few : r = readOwnAddress → ∀ numbers, readNumbers r.keyword l.chars = some numbers →
    numbers.length < 6 →
    numbers = List.replicate numbers.length 0 ∧ s.fromAddress = Record.zero 6

variable {s s' : ConfiguredSocket} {l : Line} {rest : List UInt8} {numbers : List UInt8}

theorem nul_notMem_keyword (r : AddressReader) : 0 ∉ r.keyword := by
  cases r <;> decide

/-- A line no address is taken from. -/
theorem addressOf_of_ne_six (h : numbers.length ≠ 6) : addressOf (some numbers) = Record.zero 6 :=
  dif_neg h

theorem addressOf_six (h : numbers.length = 6) : addressOf (some numbers) = ⟨numbers, h⟩ :=
  dif_pos h

/-- The member holds what `addressOf` takes from the line: as it should be, unless the line only
looks like one. -/
theorem stored_addressOf_iff (r : AddressReader) (l : Line) :
    ((∃ numbers, ∃ h : numbers.length = 6, lineNumbers r.keyword l.chars = some numbers ∧
        addressOf (readNumbers r.keyword l.chars) = ⟨numbers, h⟩) ∨
      addressOf (readNumbers r.keyword l.chars) = Record.zero 6) ↔
    ∀ numbers, readNumbers r.keyword l.chars = some numbers → numbers.length = 6 →
      numbers ≠ List.replicate 6 0 → r.Exact l := by
  constructor
  · rintro (⟨numbers, hsix, hline, -⟩ | hzero) numbers' hr hsix' hne
    · exact exact_of_lineNumbers r.nul_notMem_keyword hline
    · rw [hr, addressOf_six hsix'] at hzero
      exact absurd (congrArg Record.bytes hzero) hne
  · intro h
    cases hr : readNumbers r.keyword l.chars with
    | none => exact .inr rfl
    | some numbers =>
      by_cases hsix : numbers.length = 6
      · rw [addressOf_six hsix]
        by_cases hzero : numbers = List.replicate 6 0
        · exact .inr (Record.ext hzero)
        · obtain ⟨hline, hhead⟩ := h numbers hr hsix hzero
          rw [readNumbers_eq_lineNumbers hline hhead] at hr
          exact .inl ⟨numbers, hsix, hr, rfl⟩
      · exact .inr (addressOf_of_ne_six hsix)

theorem fill_eq_zero_iff (h : numbers.length ≤ 6) :
    Record.fill 6 numbers = Record.zero 6 ↔ numbers = List.replicate numbers.length 0 := by
  have hbytes : (Record.fill 6 numbers).bytes = numbers ++
      List.replicate (6 - numbers.length) 0 := by
    show (numbers ++ List.replicate 6 0).take 6 = _
    rw [List.take_append, List.take_of_length_le h, List.take_replicate,
      Nat.min_eq_left (Nat.sub_le ..)]
  have hzero : (Record.zero 6).bytes = List.replicate numbers.length 0 ++
      List.replicate (6 - numbers.length) 0 := by
    rw [List.replicate_append_replicate, Nat.add_sub_cancel' h]
    rfl
  constructor
  · intro heq
    have heq := congrArg Record.bytes heq
    rw [hbytes, hzero] at heq
    exact List.append_cancel_right heq
  · intro heq
    apply Record.ext
    rw [hbytes, hzero, ← heq]

/-! ### A reader on its line -/

theorem read_overrun (r : AddressReader) (h : s.input = l.text ++ rest)
    (hlen : ¬ l.text.length < LINE_BUFFER_SIZE) : r.read s = none := by
  have hline : SerialSocket.readLine s.input = none := by rw [h, readLine_line, if_neg hlen]
  cases r with
  | readOwnAddress =>
    simp only [read, ConfiguredSocket.readOwnAddress, ConfiguredSocket.lineReader, hline,
      Option.map_none]
  | readBroadcastAddress =>
    simp only [read, ConfiguredSocket.readBroadcastAddress, ConfiguredSocket.lineReader, hline,
      Option.map_none]
  | readSendAddress =>
    simp only [read, ConfiguredSocket.readSendAddress, ConfiguredSocket.liftSocket,
      SerialSocket.readSendAddress_overrun h hlen, Option.map_none]

/-- The way out of `readOwnAddress` that clears the wrong member. -/
theorem read_few (h : s.input = l.text ++ rest) (hlen : l.text.length < LINE_BUFFER_SIZE)
    (hr : readNumbers readOwnAddress.keyword l.chars = some numbers) (hfew : numbers.length < 6) :
    readOwnAddress.read s =
      some { s with
        input := rest, ownAddress := Record.fill 6 numbers, fromAddress := Record.zero 6 } := by
  rw [keyword] at hr
  rw [read, ConfiguredSocket.readOwnAddress,
    ConfiguredSocket.lineReader_line ConfiguredSocket.ignoresNewline_ownAddress h,
    if_pos hlen, ConfiguredSocket.ownAddressTokens_line, hr]
  dsimp only
  rw [if_neg (Nat.lt_asymm hfew), if_neg hfew.ne]
  rfl

theorem read_line (r : AddressReader) (h : s.input = l.text ++ rest)
    (hlen : l.text.length < LINE_BUFFER_SIZE)
    (hmany : r = readOwnAddress → ∀ numbers, readNumbers r.keyword l.chars = some numbers →
      ¬ numbers.length < 6) :
    ∃ s', r.read s = some s' ∧ r.address s' = addressOf (readNumbers r.keyword l.chars) ∧
      ∀ r', r' ≠ r → r'.address s' = r'.address s := by
  cases r with
  | readOwnAddress =>
    have hmany := hmany rfl
    rw [read, ConfiguredSocket.readOwnAddress,
      ConfiguredSocket.lineReader_line ConfiguredSocket.ignoresNewline_ownAddress h, if_pos hlen,
      ConfiguredSocket.ownAddressTokens_line]
    rw [keyword] at hmany ⊢
    cases hr : readNumbers (ascii "OWN_ADDRESS") l.chars with
    | none => exact ⟨_, rfl, rfl, fun r' hr' => by cases r' <;> first | rfl | exact absurd rfl hr'⟩
    | some numbers =>
      have hge := Nat.not_lt.1 (hmany numbers hr)
      dsimp only
      rcases Nat.eq_or_lt_of_le hge with hsix | hmore
      · have hfill : Record.fill 6 numbers = ⟨numbers, hsix.symm⟩ :=
          Record.fill_bytes ⟨numbers, hsix.symm⟩
        rw [if_neg (Nat.not_lt.2 hsix.symm.le), if_pos hsix.symm, addressOf_six hsix.symm]
        exact ⟨_, rfl, hfill, fun r' hr' => by cases r' <;> first | rfl | exact absurd rfl hr'⟩
      · rw [if_pos hmore, addressOf_of_ne_six hmore.ne']
        exact ⟨_, rfl, rfl, fun r' hr' => by cases r' <;> first | rfl | exact absurd rfl hr'⟩
  | readBroadcastAddress =>
    obtain ⟨ok, hread, -⟩ := ConfiguredSocket.broadcastAddressTokens_line l { s with input := rest }
    rw [read, ConfiguredSocket.readBroadcastAddress,
      ConfiguredSocket.lineReader_line ConfiguredSocket.ignoresNewline_broadcastAddress h,
      if_pos hlen, hread]
    exact ⟨_, rfl, rfl, fun r' hr' => by cases r' <;> first | rfl | exact absurd rfl hr'⟩
  | readSendAddress =>
    rw [read, ConfiguredSocket.readSendAddress_line h hlen]
    exact ⟨_, rfl, rfl, fun r' hr' => by cases r' <;> first | rfl | exact absurd rfl hr'⟩

/-! ### All or nothing -/

theorem allOrNothing_few_iff (s : ConfiguredSocket) (rest : List UInt8)
    (hr : readNumbers readOwnAddress.keyword l.chars = some numbers) (hfew : numbers.length < 6)
      (hs : s' = { s with
      input := rest, ownAddress := Record.fill 6 numbers, fromAddress := Record.zero 6 }) :
    readOwnAddress.AllOrNothing l s s' ↔
      numbers = List.replicate numbers.length 0 ∧ s.fromAddress = Record.zero 6 := by
  subst hs
  constructor
  · rintro ⟨⟨numbers', hsix, hline, -⟩ | hzero, hothers⟩
    · rw [readNumbers_of_lineNumbers (nul_notMem_keyword _) hline] at hr
      obtain rfl := Option.some.inj hr
      exact absurd hsix hfew.ne
    · exact ⟨(fill_eq_zero_iff hfew.le).1 hzero, (hothers readSendAddress (by decide)).symm⟩
  · rintro ⟨hzeros, hfrom⟩
    refine ⟨.inr ((fill_eq_zero_iff hfew.le).2 hzeros), fun r' hr' => ?_⟩
    cases r' with
    | readOwnAddress => exact absurd rfl hr'
    | readBroadcastAddress => rfl
    | readSendAddress => exact hfrom.symm

/-- The addresses stay whole on exactly the regular lines. -/
theorem read_all_or_nothing_iff (r : AddressReader) (l : Line) (s : ConfiguredSocket)
    (rest : List UInt8) (h : s.input = l.text ++ rest) :
    (∃ s', r.read s = some s' ∧ r.AllOrNothing l s s') ↔ r.Regular l s := by
  by_cases hlen : l.text.length < LINE_BUFFER_SIZE
  · by_cases hfew : r = readOwnAddress ∧ ∃ numbers, readNumbers r.keyword l.chars = some numbers ∧
      numbers.length < 6
    · obtain ⟨rfl, numbers, hr, hlt⟩ := hfew
      have hiff := allOrNothing_few_iff s rest hr hlt rfl
      have hnone : ∀ numbers', readNumbers readOwnAddress.keyword l.chars = some numbers' →
        numbers' = numbers :=
        fun numbers' hr' => Option.some.inj (hr'.symm.trans hr)
      rw [read_few h hlen hr hlt]
      constructor
      · rintro ⟨s', hs', hall⟩
        obtain rfl := Option.some.inj hs'
        refine ⟨hlen, fun numbers' hr' hsix => ?_, fun _ numbers' hr' _ => ?_⟩
        · obtain rfl := hnone numbers' hr'
          exact absurd hsix hlt.ne
        · obtain rfl := hnone numbers' hr'
          exact hiff.1 hall
      · intro hreg
        exact ⟨_, rfl, hiff.2 (hreg.few rfl numbers hr hlt)⟩
    · have hmany : r = readOwnAddress → ∀ numbers, readNumbers r.keyword l.chars = some numbers →
        ¬ numbers.length < 6 :=
        fun hown numbers hr hlt => hfew ⟨hown, numbers, hr, hlt⟩
      obtain ⟨s', hs', haddress, hothers⟩ := r.read_line h hlen hmany
      constructor
      · rintro ⟨s'', hs'', hall⟩
        obtain rfl := Option.some.inj (hs'.symm.trans hs'')
        have hstored := hall.stored
        rw [haddress] at hstored
        exact ⟨hlen, (r.stored_addressOf_iff l).1 hstored, fun hown numbers hr hlt =>
          absurd hlt (hmany hown numbers hr)⟩
      · intro hreg
        refine ⟨s', hs', ?_, hothers⟩
        rw [haddress]
        exact (r.stored_addressOf_iff l).2 hreg.exact_of_six
  · rw [r.read_overrun h hlen]
    constructor
    · rintro ⟨s', hs', -⟩
      cases hs'
    · intro hreg
      exact absurd hreg.fits hlen

def wholeAddress : Line := ⟨ascii "BROADCAST_ADDRESS 10 0 0 7 7 208", by decide, by decide⟩

def shortAddress : Line := ⟨ascii "OWN_ADDRESS 10 0 7", by decide, by decide⟩

theorem read_all_or_nothing_iff_whole :
    let s := newSocket wholeAddress.text
    ∃ s', readBroadcastAddress.read s = some s' ∧
      readBroadcastAddress.AllOrNothing wholeAddress s s' := by
  have hline : lineNumbers readBroadcastAddress.keyword wholeAddress.chars =
      some [10, 0, 0, 7, 7, 208] := by
    decide +kernel
  refine (read_all_or_nothing_iff .readBroadcastAddress wholeAddress (newSocket wholeAddress.text)
    []
    (List.append_nil _).symm).2 ⟨by decide, fun _ _ _ _ => ?_, fun h => by cases h⟩
  exact exact_of_lineNumbers (nul_notMem_keyword _) hline

/-- The three numbers stay in `ownAddress`. -/
theorem short_address_stored :
    let s := newSocket shortAddress.text
    ¬ ∃ s', readOwnAddress.read s = some s' ∧ readOwnAddress.AllOrNothing shortAddress s s' := by
  rintro s ⟨s', hs', hall⟩
  have hr : readNumbers readOwnAddress.keyword shortAddress.chars = some [10, 0, 7] := by
    decide +kernel
  rw [read_few (List.append_nil _).symm (by decide) hr (by decide)] at hs'
  obtain rfl := Option.some.inj hs'
  exact absurd ((allOrNothing_few_iff s [] hr (by decide) rfl).1 hall).1 (by decide)

end AddressReader

end SnGateway
