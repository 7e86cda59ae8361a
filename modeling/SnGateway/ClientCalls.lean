import SnGateway.SlotReuse

/-!
# The calls for one client

What the files of a client hold is decided by the calls made in its own transactions. `calls p b x s
ops` lists the calls of a run that may write the file with ending `x` of the client with id `b`,
with their replies. From the moment the client is added (`Joined`) and as long as it stays
registered (`Stays`) it keeps its slot; its files start empty and change with these calls only. So
what every call preserves holds at every moment (`Joined.file_run`), and a transaction on the client
works on these files (`Joined.clientFile`).
-/

namespace SnGateway
open RecordStore Persistent

variable {p : Platform} {g : Option Tx} {s s' s₀ : Persistent} {rs rs' : List EntryClient} {op : Op}
    {b : CString}

/-- A client with id `b` is registered. -/
def Registered (b : CString) (s : Persistent) : Prop :=
  ∃ e ∈ s.records, e.text EntryClient.clientId = b.bytes

instance (b : CString) (s : Persistent) : Decidable (Registered b s) :=
  inferInstanceAs (Decidable (∃ e ∈ s.records, e.text EntryClient.clientId = b.bytes))

/-- The client with id `b` stays registered throughout the run. -/
def Stays (p : Platform) (b : CString) : Persistent → List Op → Prop
  | _, [] => True
  | s, op :: ops => Registered b (s.next p op) ∧ Stays p b (s.next p op) ops

def decidableStays (p : Platform) (b : CString) :
    ∀ (s : Persistent) (ops : List Op), Decidable (Stays p b s ops)
  | _, [] => .isTrue trivial
  | s, op :: ops =>
    have := decidableStays p b (s.next p op) ops
    inferInstanceAs (Decidable (_ ∧ _))

instance (p : Platform) (b : CString) (s : Persistent) (ops : List Op) :
    Decidable (Stays p b s ops) :=
  decidableStays p b s ops

/-- The client with id `b` was just added, in a run that started on an empty directory. -/
inductive Joined (p : Platform) (b : CString) : Option Tx → Persistent → Prop where
  | intro {s₀ s : Persistent} {g : Option Tx} (a : DeviceAddress) (d : UInt32) (h₀ : Fresh s₀)
      (hdir : ∀ n, s₀.fs n = none) (h : Reachable p s₀ g s) (ha : Allowed p g s (.addClient b a d))
      (hok : (s.next p (.addClient b a d)).clientExist = true) :
      Joined p b (track g (.addClient b a d) (s.next p (.addClient b a d)))
        (s.next p (.addClient b a d))

/-- The calls for the file with ending `x` in error-free transactions on the client with id `b`. -/
def calls (p : Platform) (b : CString) (x : FileEnding) : Persistent → List Op → List (Op × Reply)
  | _, [] => []
  | s, op :: ops =>
    if s.getClientId = some b.bytes ∧ op.ending = some x then
      (op, (s.step p PERSISTENT_DEBUG op).1) :: calls p b x (s.next p op) ops
    else calls p b x (s.next p op) ops

/-! ### Runs in two parts -/

theorem AllowedRun.left {ops₁ ops₂ : List Op} (h : AllowedRun p g s (ops₁ ++ ops₂)) :
    AllowedRun p g s ops₁ := by
  induction ops₁ generalizing g s with
  | nil => trivial
  | cons op ops₁ ih => exact ⟨h.1, ih h.2⟩

theorem Stays.left {ops₁ ops₂ : List Op} (h : Stays p b s (ops₁ ++ ops₂)) : Stays p b s ops₁ := by
  induction ops₁ generalizing s with
  | nil => trivial
  | cons op ops₁ ih => exact ⟨h.1, ih h.2⟩

theorem calls_append (x : FileEnding) (ops₁ ops₂ : List Op) :
    calls p b x s (ops₁ ++ ops₂) = calls p b x s ops₁ ++ calls p b x (s.run p ops₁) ops₂ := by
  induction ops₁ generalizing s with
  | nil => rfl
  | cons op ops₁ ih =>
    rw [List.cons_append, calls, calls]
    split
    · rw [ih, List.cons_append]; rfl
    · exact ih

/-! ### The slot of a client -/

/-- Slot `j` holds the client with id `b`. -/
def HasSlot (rs : List EntryClient) (b : CString) (j : Nat) : Prop :=
  ∃ e, rs[j]? = some e ∧ Live j e ∧ e.text EntryClient.clientId = b.bytes

theorem Persistent.open_of_getClientId {c : List UInt8} (h : s.getClientId = some c) :
    s.blocked = false ∧ s.notInClientRegistry = false ∧
      s.entryClient.text EntryClient.clientId = c := by
  unfold getClientId at h
  split at h
  · cases h
  · next hb =>
    split at h
    · cases h
    · next hn =>
      split at h
      · cases h
      · exact ⟨blocked_of_not hb, blocked_of_not hn, Option.some.inj h⟩

namespace RegInv

/-- A transaction on the client works on the files of its slot. -/
theorem clientFile_of_slot (h : RegInv g s rs) {j : Nat} (hj : HasSlot rs b j)
    (hid : s.getClientId = some b.bytes) (x : FileEnding) : s.clientFile x = slotFile j x := by
  obtain ⟨hopen, hin, hc⟩ := open_of_getClientId hid
  obtain ⟨e, hj, hl, hb⟩ := hj
  obtain ⟨t, i, -, hslot, hlive, -⟩ := h.slot_of_registered hopen hin
  have hkey : clientKey e = some b.bytes := by rw [hl.key, hb]
  have hkey' : clientKey s.entryClient = some b.bytes := by rw [hlive.key, hc]
  obtain rfl := h.table.distinct i j _ _ _ hslot hj hkey' hkey
  exact hlive.fileName x

/-- Only transactions on the client work on the files of its slot. -/
theorem getClientId_of_clientFile (h : RegInv g s rs) {j : Nat} {x y : FileEnding}
    (hj : HasSlot rs b j) (hopen : s.blocked = false) (hf : s.clientFile x = slotFile j y) :
    s.getClientId = some b.bytes ∧ x = y := by
  obtain ⟨e, hj, hl, hb⟩ := hj
  rcases h.clientFile_cases hopen with ⟨i, hin, hi, hlive, hname⟩ | ⟨-, hname⟩
  · rw [hname] at hf
    obtain ⟨rfl, rfl⟩ := slotFile_injective hf
    rw [hi] at hj; cases hj
    have hlen : ¬ MAXIMUM_CLIENT_ID_LENGTH ≤ b.bytes.length := by
      rw [← hb]
      exact Nat.not_le.2 hl.id_lt
    exact ⟨by simp [getClientId, hopen, hin, hb, hlen], rfl⟩
  · rw [hname] at hf
    exact absurd hf.symm (bytes_ne_slotFile x y j)

/-- While the client stays registered it keeps its slot, and only the calls for one of its files
change that file. -/
theorem client_step (h : RegInv g s rs) (ha : Allowed p g s op) {j : Nat} (hj : HasSlot rs b j)
    (hreg : Registered b (s.next p op)) :
    HasSlot (s.next p op).records b j ∧ ∀ x, ¬ (s.getClientId = some b.bytes ∧ op.ending = some x) →
      (s.next p op).fs.contents (slotFile j x) = s.fs.contents (slotFile j x) := by
  have he := h.effect_of_allowed ha
  have hother : op.isRegistry = false → Outcome p s op (s.next p op) :=
    outcome_step PERSISTENT_DEBUG
  generalize s.next p op = s' at he hreg hother ⊢
  obtain ⟨e, hslot, hl, hb⟩ := id hj
  have hkeep : s'.fs.contents clientRegistry = encode rs → HasSlot s'.records b j := by
    intro hu
    rw [records_of_contents hu]
    exact hj
  have hplace : ∀ {k : Nat} {e' : EntryClient}, s'.fs.contents clientRegistry =
    encode (SlotTable.place rs k e') →
      k ≤ rs.length → j ≠ k → HasSlot s'.records b j := by
    intro k e' hu hk hne
    rw [records_of_contents hu]
    exact ⟨e, by rw [SlotTable.getElem?_place hk, if_neg hne]; exact hslot, hl, hb⟩
  cases he with
  | other hop hlocal =>
    refine ⟨hkeep (h.contents_of_local hlocal), fun x hx => ?_⟩
    cases hother hop with
    | same | online | raise => rfl
    | own y fs' hy hopen hfs =>
      refine Files.contents_congr (hfs _ fun hf => hx ?_)
      obtain ⟨hid, rfl⟩ := h.getClientId_of_clientFile hj hopen hf.symm
      exact ⟨hid, hy⟩
    | shared fs' _ _ hfs => exact Files.contents_congr (hfs _ (slotFile_ne_mqttSub j x))
    | fallThrough k hop' hopen =>
      refine Files.contents_congr (Files.writeAt_ne p _ _ fun hf => hx ?_)
      obtain ⟨hid, rfl⟩ := h.getClientId_of_clientFile hj hopen hf.symm
      exact ⟨hid, by rw [hop']; rfl⟩
  | skip | raise | found | missing | apply => exact ⟨hkeep h.file, fun _ _ => rfl⟩
  | begin _ _ _ =>
    exact ⟨hkeep ((Files.contents_begin clientRegistry_ne_mqttSub).trans h.file),
      fun x _ => Files.contents_begin (slotFile_ne_mqttSub j x)⟩
  | rewrite i e' _ _ hi hlive _ hid hnum =>
    refine ⟨?_, fun x _ => Files.contents_set_ne _ (slotFile_ne_clientRegistry j x)⟩
    by_cases hji : j = i
    · subst hji
      rw [records_of_contents (Files.contents_set_self _)]
      rw [hslot] at hi; cases hi
      exact ⟨e', by rw [SlotTable.getElem?_place (RegTable.index_lt hslot).le, if_pos rfl],
        hl.rewrite hid hnum, hid.trans hb⟩
    · exact hplace (Files.contents_set_self _) (RegTable.index_lt hi).le hji
  | add c a d k _ _ _ hk _ hfree =>
    have hne : j ≠ k := fun hjk => FreeSlot.ne_live hfree hslot hl hjk.symm
    refine ⟨hplace (Files.contents_set_self _) hk hne, fun x _ => ?_⟩
    rw [Files.contents_set_ne _ (slotFile_ne_clientRegistry j x), Files.contents_createSlot]
  | delete c i _ _ _ _ hi hlive =>
    have hkey : clientKey e = some b.bytes := by rw [hl.key, hb]
    have hne : j ≠ i := by
      -- the only slot with the id would have been freed
      rintro rfl
      obtain ⟨e', he', hid⟩ := hreg
      rw [records_of_contents (Files.contents_set_self _)] at he'
      obtain ⟨m, hm⟩ := List.getElem?_of_mem he'
      rw [SlotTable.getElem?_place (RegTable.index_lt hi).le] at hm
      split at hm
      · cases hm; exact hl.id_ne (hb.trans (hid.symm.trans text_clientId_zero))
      · next hmj =>
        have hkey' : clientKey e' = some b.bytes := clientKey_eq_some.2 ⟨hid, hb ▸ hl.id_ne⟩
        exact hmj (h.table.distinct m j _ _ _ hm hslot hkey' hkey)
    refine ⟨hplace (Files.contents_set_self _) (RegTable.index_lt hi).le hne, fun x _ => ?_⟩
    rw [Files.contents_set_ne _ (slotFile_ne_clientRegistry j x)]
    exact Files.contents_congr (Files.removeSlot_ne fun y => slotFile_ne_of_slot hne x y)

theorem slot_run (h : RegInv g s rs) {j : Nat} {ops : List Op} (ha : AllowedRun p g s ops)
    (hstay : Stays p b s ops) (hj : HasSlot rs b j) :
    ∃ rs', RegInv (runTx p g s ops) (s.run p ops) rs' ∧ HasSlot rs' b j := by
  induction ops generalizing g s rs with
  | nil => exact ⟨rs, h, hj⟩
  | cons op ops ih =>
    obtain ⟨rs', h'⟩ := h.next ha.1
    obtain ⟨hj', -⟩ := h.client_step ha.1 hj hstay.1
    rw [records_of_contents h'.file] at hj'
    exact ih h' ha.2 hstay.2 hj'

/-- What every call for a file preserves holds of the calls made so far and what the file holds. -/
theorem file_run (h : RegInv g s rs) {x : FileEnding} {Q : List (Op × Reply) → List UInt8 → Prop}
    (hstep : ∀ (s : Persistent) (op : Op) (before : List (Op × Reply)),
      s.getClientId = some b.bytes → op.ending = some x →
      Q before (s.fs.contents (s.clientFile x)) →
      Q (before ++ [(op, (s.step p PERSISTENT_DEBUG op).1)])
      ((s.next p op).fs.contents (s.clientFile x)))
    {j : Nat} {ops : List Op} {before : List (Op × Reply)} (ha : AllowedRun p g s ops)
    (hstay : Stays p b s ops) (hj : HasSlot rs b j) (hQ : Q before (s.fs.contents (slotFile j x))) :
    Q (before ++ calls p b x s ops) ((s.run p ops).fs.contents (slotFile j x)) := by
  induction ops generalizing g s rs before with
  | nil => rw [calls, List.append_nil]; exact hQ
  | cons op ops ih =>
    obtain ⟨rs', h'⟩ := h.next ha.1
    obtain ⟨hj', hfile⟩ := h.client_step ha.1 hj hstay.1
    rw [records_of_contents h'.file] at hj'
    rw [calls]
    split
    · next hc =>
      have hname := h.clientFile_of_slot hj hc.1 x
      have hQ' := hstep s op before hc.1 hc.2 (by rw [hname]; exact hQ)
      rw [hname] at hQ'
      have := ih h' ha.2 hstay.2 hj' hQ'
      rwa [List.append_assoc, List.singleton_append] at this
    · next hc => exact ih h' ha.2 hstay.2 hj' (by rw [hfile x hc]; exact hQ)

end RegInv

/-! ### From the moment the client is added -/

namespace Joined

variable {ops : List Op} {x : FileEnding}

theorem slot (h : Joined p b g s) :
    ∃ (rs : List EntryClient) (j : Nat), RegInv g s rs ∧ HasSlot rs b j ∧
    ∀ x, s.clientFile x = slotFile j x ∧ s.fs.contents (slotFile j x) = [] := by
  obtain ⟨a, d, h₀, hdir, hr, ha, hok⟩ := h
  obtain ⟨rs, hi⟩ := hr.inv h₀
  obtain ⟨rs', hi'⟩ := (hr.step _ ha).inv h₀
  obtain ⟨k, hfree, hslot, hlive, hid, hfiles⟩ := (hi.effect_of_allowed ha).added hok
  rw [records_of_contents hi'.file] at hslot
  refine ⟨rs', k, hi', ⟨_, hslot, hlive, hid⟩, fun x => ⟨(hfiles x).1, ?_⟩⟩
  rw [(hfiles x).2]
  exact Files.contents_of_none
    (hr.freeSlots h₀ hdir k (by rw [records_of_contents hi.file]; exact hfree) x)

/-- What holds of an empty file and is preserved by every call for it holds at every moment. -/
theorem file_run (h : Joined p b g s) {Q : List (Op × Reply) → List UInt8 → Prop} (hinit : Q [] [])
    (hstep : ∀ (s : Persistent) (op : Op) (before : List (Op × Reply)),
      s.getClientId = some b.bytes → op.ending = some x →
      Q before (s.fs.contents (s.clientFile x)) →
      Q (before ++ [(op, (s.step p PERSISTENT_DEBUG op).1)])
      ((s.next p op).fs.contents (s.clientFile x)))
    (ha : AllowedRun p g s ops) (hstay : Stays p b s ops) :
    Q (calls p b x s ops) ((s.run p ops).fs.contents (s.clientFile x)) := by
  obtain ⟨rs, j, hi, hj, hfiles⟩ := h.slot
  have hQ : Q [] (s.fs.contents (slotFile j x)) := by rw [(hfiles x).2]; exact hinit
  rw [(hfiles x).1]
  exact hi.file_run hstep ha hstay hj hQ

/-- A later transaction on the client works on the same files. -/
theorem clientFile (h : Joined p b g s) (ha : AllowedRun p g s ops) (hstay : Stays p b s ops)
    (hid : (s.run p ops).getClientId = some b.bytes) (x : FileEnding) :
    (s.run p ops).clientFile x = s.clientFile x := by
  obtain ⟨rs, j, hi, hj, hfiles⟩ := h.slot
  obtain ⟨rs', hi', hslot⟩ := hi.slot_run ha hstay hj
  rw [hi'.clientFile_of_slot hslot hid, (hfiles x).1]

end Joined

/-- A gateway whose first client was just added. -/
def firstClient : Persistent :=
  setUp.run posix [.begin, .startClientTransaction device1, .addClient device1 address1 60]

theorem firstClient_joined :
    Joined posix device1 (some ⟨some device1.bytes, true⟩) firstClient := by
  let before : List Op := [.begin, .startClientTransaction device1]
  have hr : Reachable posix setUp (runTx posix none setUp before) (setUp.run posix before) :=
    Reachable.init.run (by decide +kernel)
  exact .intro address1 60 ⟨rfl, rfl⟩ (fun _ => rfl) hr (by decide +kernel) (by decide +kernel)

end SnGateway
