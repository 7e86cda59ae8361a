import SnGateway.Serial

/-!
# Reading a line back

The tokens of a line of numbers are its keyword and the renderings of its bytes, the newline stuck
to the last of them (`lineTokens`); `parseNumbers` turns the renderings back into the bytes. So the
readers return what was sent as long as the line fits into their buffer.
-/

namespace SnGateway
open RecordStore

namespace SerialSocket

/-! ### The tokens of a line -/

/-- The tokens of a line of numbers. -/
def lineTokens : List UInt8 → List UInt8 → List (List UInt8)
  | keyword, [] => [keyword ++ [10]]
  | keyword, b :: bytes => keyword :: lineTokens (decimal b.toNat) bytes

theorem lineTokens_ne_nil (keyword bytes : List UInt8) : lineTokens keyword bytes ≠ [] := by
  cases bytes <;> simp [lineTokens]

theorem notMem_decimal {n : Nat} {c : UInt8} (h : ∀ d < 10, digitChar d ≠ c) : c ∉ decimal n := by
  intro hc
  obtain ⟨d, hd, rfl⟩ := mem_decimal hc
  exact h d hd rfl

theorem space_notMem_lineTokens {keyword : List UInt8} (bytes : List UInt8) (hk : 32 ∉ keyword) :
    ∀ t ∈ lineTokens keyword bytes, 32 ∉ t := by
  induction bytes generalizing keyword with
  | nil =>
    intro t ht
    obtain rfl : t = keyword ++ [10] := by simpa [lineTokens] using ht
    simpa using hk
  | cons b bytes ih =>
    intro t ht
    rw [lineTokens, List.mem_cons] at ht
    rcases ht with rfl | ht
    · exact hk
    · exact ih (notMem_decimal (by decide)) t ht

theorem numberLine_eq (keyword bytes : List UInt8) :
    numberLine keyword bytes = List.intercalate [32] (lineTokens keyword bytes) := by
  induction bytes generalizing keyword with
  | nil => simp [numberLine, lineTokens]
  | cons b bytes ih =>
    obtain ⟨t, ts, hts⟩ := List.exists_cons_of_ne_nil (lineTokens_ne_nil (decimal b.toNat) bytes)
    have hnext := ih (decimal b.toNat)
    rw [lineTokens, hts, List.intercalate_cons_cons, ← hts, ← hnext]
    simp [numberLine]

theorem strsepTokens_numberLine {keyword : List UInt8} (bytes : List UInt8) (hk : 32 ∉ keyword) :
    strsepTokens 32 (numberLine keyword bytes) = lineTokens keyword bytes := by
  rw [strsepTokens, numberLine_eq]
  exact List.splitOn_intercalate 32 (space_notMem_lineTokens bytes hk)
    (lineTokens_ne_nil keyword bytes)

/-! ### Parsing the numbers -/

theorem parseLong_decimal (b : UInt8) {rest : List UInt8} (hr : rest = [] ∨ rest = [10]) :
    parseLong (decimal b.toNat ++ rest) = (true, (b.toNat : Int)) := by
  have hlt := b.toNat_lt
  have hmax : (b.toNat : Int) ≤ LONG_MAX := by
    have : (256 : Int) ≤ LONG_MAX := by decide
    omega
  rw [parseLong, strtol_decimal hmax hr]
  rcases hr with rfl | rfl <;> simp

theorem parseNumbers_cons {capacity : Option Nat} {b : UInt8} {rest : List UInt8}
    (hr : rest = [] ∨ rest = [10]) {stored : List UInt8}
    (hcap : ∀ n ∈ capacity, stored.length + 1 ≤ n) (tokens : List (List UInt8)) :
    parseNumbers capacity ((decimal b.toNat ++ rest) :: tokens) stored =
      parseNumbers capacity tokens (stored ++ [b]) := by
  have hlt := b.toNat_lt
  have hrange : ¬ (UINT8_MAX < (b.toNat : Int) ∨ (b.toNat : Int) < 0) := by
    simp only [UINT8_MAX]
    omega
  have hroom : ¬ (capacity.any fun n => n < stored.length + 1) = true := by
    cases capacity with
    | none => simp
    | some n => simpa using hcap n rfl
  simp only [parseNumbers, parseLong_decimal b hr]
  rw [if_neg (by simp), if_neg hrange, if_neg hroom]
  simp

theorem parseNumbers_lineTokens {capacity : Option Nat} (b : UInt8) (bytes stored : List UInt8)
    (hcap : ∀ n ∈ capacity, stored.length + 1 + bytes.length ≤ n) :
    parseNumbers capacity (lineTokens (decimal b.toNat) bytes) stored =
      some (stored ++ b :: bytes) := by
  induction bytes generalizing b stored with
  | nil =>
    rw [lineTokens, parseNumbers_cons (.inr rfl) (by simpa using hcap), parseNumbers]
  | cons b' bytes ih =>
    have hroom : ∀ n ∈ capacity, stored.length + 1 ≤ n := fun n hn => by have := hcap n hn; omega
    have hhead := parseNumbers_cons (b := b) (.inl rfl) hroom (lineTokens (decimal b'.toNat) bytes)
    rw [List.append_nil] at hhead
    rw [lineTokens, hhead, ih b' (stored ++ [b])]
    · simp
    · intro n hn
      have := hcap n hn
      simp at this ⊢
      omega

/-! ### The line in the buffer -/

theorem nextLine_append {line : List UInt8} (hl : 10 ∉ line) (rest : List UInt8) :
    nextLine (line ++ 10 :: rest) = some (line ++ [10], rest) := by
  induction line with
  | nil => simp [nextLine]
  | cons c line ih =>
    have hc : c ≠ 10 := fun h => hl (by simp [h])
    rw [List.cons_append, nextLine, if_neg hc, ih fun h => hl (List.mem_cons_of_mem _ h)]
    rfl

theorem notMem_numbers {c : UInt8} (hc : ∀ d < 10, digitChar d ≠ c) (hsp : c ≠ 32)
    (bytes : List UInt8) : c ∉ bytes.flatMap fun b => 32 :: decimal b.toNat := by
  intro h
  obtain ⟨b, -, hb⟩ := List.mem_flatMap.1 h
  rw [List.mem_cons] at hb
  exact hb.elim hsp (notMem_decimal hc)

theorem nextLine_numberLine {keyword : List UInt8} (hk : 10 ∉ keyword) (bytes rest : List UInt8) :
    nextLine (numberLine keyword bytes ++ rest) = some (numberLine keyword bytes, rest) := by
  have hl : 10 ∉ keyword ++ bytes.flatMap fun b => 32 :: decimal b.toNat := by
    rw [List.mem_append]
    exact fun h => h.elim hk (notMem_numbers (by decide) (by decide) bytes)
  rw [numberLine, List.append_assoc, List.singleton_append]
  exact nextLine_append hl rest

theorem storedChars_numberLine {keyword : List UInt8} (hk : 10 ∉ keyword)
    (bytes rest : List UInt8) :
    storedChars (numberLine keyword bytes ++ rest) = (numberLine keyword bytes).length := by
  rw [storedChars, nextLine_numberLine hk]
  rfl

theorem readLine_numberLine {keyword : List UInt8} (hk : 10 ∉ keyword) (hnul : 0 ∉ keyword)
    (bytes rest : List UInt8) :
    readLine (numberLine keyword bytes ++ rest) =
      if (numberLine keyword bytes).length < LINE_BUFFER_SIZE then some (numberLine keyword bytes,
        rest) else none := by
  have hcstr : cstr (numberLine keyword bytes) = numberLine keyword bytes := by
    have h0 : 0 ∉ numberLine keyword bytes := by
      rw [numberLine, List.mem_append, List.mem_append]
      rintro ((h | h) | h)
      · exact hnul h
      · exact notMem_numbers (by decide) (by decide) bytes h
      · exact absurd h (by decide)
    exact cstr_eq_self h0
  rw [readLine, nextLine_numberLine hk]
  dsimp only
  rw [hcstr]

/-! ### The length of a line -/

/-- The number of decimal digits of a byte. -/
def decimalDigits (b : UInt8) : Nat := if b < 10 then 1 else if b < 100 then 2 else 3

theorem length_decimal_byte (b : UInt8) : (decimal b.toNat).length = decimalDigits b := by
  have h : ∀ n < 256, (decimal n).length = decimalDigits (UInt8.ofNat n) := by decide +kernel
  simpa using h b.toNat b.toNat_lt

theorem decimalDigits_le (b : UInt8) : decimalDigits b ≤ 3 := by
  rw [decimalDigits]
  split
  · omega
  · split <;> omega

def digitCount (bytes : List UInt8) : Nat := (bytes.map decimalDigits).sum

theorem digitCount_le (bytes : List UInt8) : digitCount bytes ≤ 3 * bytes.length := by
  induction bytes with
  | nil => simp [digitCount]
  | cons b bytes ih =>
    have := decimalDigits_le b
    rw [digitCount, List.map_cons, List.sum_cons, ← digitCount, List.length_cons]
    omega

theorem length_numberLine (keyword bytes : List UInt8) :
    (numberLine keyword bytes).length = keyword.length + bytes.length + digitCount bytes + 1 := by
  induction bytes with
  | nil => simp [numberLine, digitCount]
  | cons b bytes ih =>
    simp only [numberLine, List.length_append, List.flatMap_cons, List.length_cons, List.length_nil]
      at ih ⊢
    rw [length_decimal_byte, digitCount, List.map_cons, List.sum_cons, ← digitCount]
    omega

/-! ### The readers -/

theorem hasKeyword_self (keyword rest : List UInt8) :
    hasKeyword keyword (keyword ++ rest) = true := by
  simp [hasKeyword]

theorem tokens_numberLine (capacity : Option Nat) {keyword : List UInt8} (hk : 32 ∉ keyword)
    (bytes : List UInt8) (hcap : ∀ n ∈ capacity, bytes.length ≤ n) :
    ∃ token tokens, strsepTokens 32 (numberLine keyword bytes) = token :: tokens ∧
      hasKeyword keyword token = true ∧ parseNumbers capacity tokens [] = some bytes := by
  rw [strsepTokens_numberLine bytes hk]
  cases bytes with
  | nil => exact ⟨keyword ++ [10], [], rfl, hasKeyword_self _ _, rfl⟩
  | cons b bytes =>
    refine ⟨keyword, lineTokens (decimal b.toNat) bytes,
      rfl, by simpa using hasKeyword_self keyword [], ?_⟩
    refine parseNumbers_lineTokens b bytes [] fun n hn => ?_
    have := hcap n hn
    simpa [Nat.add_comm] using this

variable {s : SerialSocket} {a : DeviceAddress} {d : Payload} {rest : List UInt8}

theorem length_addressLine (a : DeviceAddress) :
    (numberLine (ascii "ADDRESS") a.bytes).length ≤ 32 := by
  have h1 := digitCount_le a.bytes
  have h2 := length_numberLine (ascii "ADDRESS") a.bytes
  have h3 : (ascii "ADDRESS").length = 7 := rfl
  rw [a.size_eq] at h1 h2
  omega

theorem length_dataLine (d : Payload) :
    (numberLine (ascii "DATA") d.bytes).length = 5 + d.bytes.length + digitCount d.bytes := by
  rw [length_numberLine, show (ascii "DATA").length = 4 from rfl]
  omega

theorem readSendAddress_addressLine (h : s.input = numberLine (ascii "ADDRESS") a.bytes ++ rest) :
    s.readSendAddress = some { s with input := rest, fromAddress := a } := by
  have hkw : 32 ∉ ascii "ADDRESS" := by decide
  obtain ⟨token, tokens, htok, hkey, hnum⟩ :=
    tokens_numberLine (some 6) hkw a.bytes (by intro n hn; cases hn; exact a.size_eq.le)
  have hlen : (numberLine (ascii "ADDRESS") a.bytes).length < LINE_BUFFER_SIZE :=
    Nat.lt_of_le_of_lt (length_addressLine a) (by decide)
  rw [readSendAddress, h, readLine_numberLine (by decide) (by decide), if_pos hlen]
  dsimp only
  rw [htok]
  dsimp only
  rw [hkey, hnum]
  simp [a.size_eq]

theorem readData_dataLine (h : s.input = numberLine (ascii "DATA") d.bytes ++ rest)
    (hlen : (numberLine (ascii "DATA") d.bytes).length < LINE_BUFFER_SIZE) :
    s.readData = some { s with input := rest, data := d.bytes, dataLength := d.bytes.length } := by
  have hkw : 32 ∉ ascii "DATA" := by decide
  obtain ⟨token, tokens, htok, hkey, hnum⟩ :=
    tokens_numberLine none hkw d.bytes (by intro n hn; cases hn)
  have hmod : d.bytes.length % 2 ^ 16 = d.bytes.length :=
    Nat.mod_eq_of_lt (by have := d.length_le; omega)
  rw [readData, h, readLine_numberLine (by decide) (by decide), if_pos hlen]
  dsimp only
  rw [htok]
  dsimp only
  rw [hkey, hnum, if_neg (by decide)]
  dsimp only
  rw [hmod]

/-- The receiver `r` gets the lines that `s` writes for the address `a` and the payload `d`: it
reads the address and the payload, and no reader stores more characters than leave its buffer
terminated. -/
def RoundTrips (s r : SerialSocket) (a : DeviceAddress) (d : Payload) : Prop :=
  let lines := (({ s with output := [] }.sendAddress a).sendData d).output
  ∃ r₁ r₂ : SerialSocket, { r with input := lines }.readSendAddress = some r₁ ∧
    r₁.readData = some r₂ ∧
    r₂.fromAddress = a ∧ r₂.dataLength = d.bytes.length ∧ r₂.data = d.bytes ∧
    storedChars lines ≤ 1023 ∧ storedChars r₁.input ≤ 1023

theorem roundTrips_iff_length (s r : SerialSocket) (a : DeviceAddress) (d : Payload) :
    RoundTrips s r a d ↔ (numberLine (ascii "DATA") d.bytes).length ≤ 1023 := by
  obtain ⟨lines, hlines⟩ : ∃ lines, (({ s with output := [] }.sendAddress a).sendData d).output =
      lines := ⟨_, rfl⟩
  have heq : lines = numberLine (ascii "ADDRESS") a.bytes ++
      (numberLine (ascii "DATA") d.bytes ++ []) := by
    rw [← hlines]
    simp [sendAddress, sendData]
  have haddr := readSendAddress_addressLine (s := { r with input := lines }) heq
  unfold RoundTrips
  rw [hlines]
  constructor
  · rintro ⟨r₁, r₂, h1, -, -, -, -, -, hstored⟩
    rw [haddr] at h1; cases h1
    rwa [storedChars_numberLine (by decide)] at hstored
  · intro hlen
    have hdata := readData_dataLine
      (s := { r with input := numberLine (ascii "DATA") d.bytes ++ [], fromAddress := a })
        rfl (Nat.lt_succ_of_le hlen)
    refine ⟨_, _, haddr, hdata, rfl, rfl, rfl, ?_, ?_⟩
    · rw [heq, storedChars_numberLine (by decide)]
      exact (length_addressLine a).trans (by decide)
    · rw [storedChars_numberLine (by decide)]
      exact hlen

/-- A payload comes through exactly when it has fewer than 255 bytes or fewer than 764 digits. -/
theorem serial_round_trip (s r : SerialSocket) (a : DeviceAddress) (d : Payload) :
    RoundTrips s r a d ↔ d.bytes.length < 255 ∨ digitCount d.bytes < 764 := by
  have h1 := d.length_le
  have h2 := digitCount_le d.bytes
  rw [roundTrips_iff_length, length_dataLine]
  omega

def idleSocket : SerialSocket := ⟨[], [], Record.zero 6, [], 0⟩

def bridgeAddress : DeviceAddress := ⟨[10, 0, 0, 7, 7, 208], rfl⟩

def longPayload : Payload := ⟨List.replicate 255 255, List.length_replicate.le⟩

theorem serial_overruns_buffer : ¬ RoundTrips idleSocket idleSocket bridgeAddress longPayload := by
  rw [roundTrips_iff_length]
  decide +kernel

end SerialSocket

end SnGateway
