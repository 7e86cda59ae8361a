import SnGateway.Isolation

/-!
# Slots that are used again

A new client may get the slot of one that was deleted, and `add_client` opens the four files of the
slot without truncating them. It starts clean all the same: a free slot has no files (`FreeSlots`),
since whatever frees a slot removes them first and no operation writes to a slot that is not its
client's.
-/

namespace SnGateway
open RecordStore Persistent

variable {p : Platform} {g : Option Tx} {s s' s₀ : Persistent} {rs : List EntryClient} {op : Op}

/-- Slot `i` holds no client. -/
def FreeSlot (rs : List EntryClient) (i : Nat) : Prop := ∀ e, rs[i]? = some e → e = Record.zero 57

/-- Free slots have no files. -/
def FreeSlots (s : Persistent) : Prop := ∀ i, FreeSlot s.records i → ∀ x, s.fs (slotFile i x) = none

theorem FreeSlot.ne_live {i j : Nat} {e : EntryClient} (hf : FreeSlot rs j) (hi : rs[i]? = some e)
    (hl : Live i e) : j ≠ i := by
  rintro rfl
  rw [hf e hi] at hl
  exact hl.id_ne text_clientId_zero

theorem FreeSlot.of_place {i j : Nat} {e : EntryClient} (hi : i ≤ rs.length) (hne : j ≠ i)
    (hf : FreeSlot (SlotTable.place rs i e) j) : FreeSlot rs j := by
  intro b hb
  refine hf b ?_
  rw [SlotTable.getElem?_place hi, if_neg hne]
  exact hb

theorem FreeSlot.ne_placed {i j : Nat} {e : EntryClient} (hi : i ≤ rs.length) (hl : Live i e)
    (hf : FreeSlot (SlotTable.place rs i e) j) : j ≠ i :=
  hf.ne_live (by rw [SlotTable.getElem?_place hi, if_pos rfl]) hl

/-- No operation leaves files in a free slot. -/
theorem RegInv.freeSlots (h : RegInv g s rs) (hfree : FreeSlots s) (he : Effect p s rs op s') :
    FreeSlots s' := by
  have hrec := records_of_contents h.file
  have hkeep : ∀ {u : Persistent}, u.fs.contents clientRegistry = encode rs →
      (∀ j, FreeSlot rs j → ∀ x, u.fs (slotFile j x) = s.fs (slotFile j x)) → FreeSlots u := by
    intro u hu hfs j hj x
    rw [records_of_contents hu] at hj
    rw [hfs j hj x]
    exact hfree j (by rw [hrec]; exact hj) x
  cases he with
  | other hop hlocal =>
    refine hkeep (h.contents_of_local hlocal) fun j hj x => ?_
    refine hlocal.fs_eq (slotFile_ne_mqttSub j x) fun y hopen => ?_
    rcases h.clientFile_cases hopen with ⟨i, -, hi, hl, hf⟩ | ⟨-, hf⟩
    · rw [hf]; exact slotFile_ne_of_slot (hj.ne_live hi hl) x y
    · rw [hf]; exact bytes_ne_slotFile y x j
  | skip | raise | found | missing | apply => exact hkeep h.file fun _ _ _ => rfl
  | begin _ _ _ =>
    refine hkeep ?_ fun j _ x => Files.slotFile_begin j x
    exact (Files.contents_begin clientRegistry_ne_mqttSub).trans h.file
  | rewrite i e' hopen hin hslot hlive _ hid hnum =>
    have hi := (RegTable.index_lt hslot).le
    have hlive' : Live i e' := hlive.rewrite hid hnum
    intro j hj x
    rw [records_of_contents (Files.contents_set_self _)] at hj
    have hj' : FreeSlot rs j := hj.of_place hi (hj.ne_placed hi hlive')
    exact (Files.set_ne _ (slotFile_ne_clientRegistry j x)).trans
      (hfree j (by rw [hrec]; exact hj') x)
  | add c a d k _ _ _ hk _ _ hlive _ =>
    intro j hj x
    rw [records_of_contents (Files.contents_set_self _)] at hj
    have hne := hj.ne_placed hk hlive
    have hj' : FreeSlot rs j := hj.of_place hk hne
    exact (Files.set_ne _ (slotFile_ne_clientRegistry j x)).trans
      ((Files.createSlot_ne fun y => slotFile_ne_of_slot hne x y).trans
        (hfree j (by rw [hrec]; exact hj') x))
  | delete c i _ _ _ _ hslot _ =>
    intro j hj x
    rw [records_of_contents (Files.contents_set_self _)] at hj
    refine (Files.set_ne _ (slotFile_ne_clientRegistry j x)).trans ?_
    by_cases hji : j = i
    · subst hji; exact Files.removeSlot_self j x
    · have hj' : FreeSlot rs j := hj.of_place (RegTable.index_lt hslot).le hji
      exact (Files.removeSlot_ne fun y => slotFile_ne_of_slot hji x y).trans
        (hfree j (by rw [hrec]; exact hj') x)

theorem Reachable.freeSlots (h : Reachable p s₀ g s) (h₀ : Fresh s₀) (hdir : ∀ n, s₀.fs n = none) :
    FreeSlots s := by
  induction h with
  | init => exact fun i _ x => hdir _
  | step op hr ha ih =>
    obtain ⟨rs, hi⟩ := hr.inv h₀
    exact hi.freeSlots ih (hi.effect_of_allowed ha)

/-! ### The new client -/

theorem Persistent.nothing_of_empty (hfiles : ∀ x, s.fs.contents (s.clientFile x) = []) :
    (∀ i, s.getTopicName i = none) ∧ s.getClientSubscriptionCount = 0 ∧ s.hasClientWill = false ∧
      s.hasClientPublishes = false := by
  refine ⟨fun i => ?_, ?_, ?_, ?_⟩
  · unfold getTopicName
    dsimp only
    rw [hfiles, Scanner.scan_nil _ (by omega)]
    split
    · rfl
    · split <;> rfl
  · unfold getClientSubscriptionCount
    rw [hfiles]
    split
    · rfl
    · split
      · rfl
      · simp [reads, readsAux, countSubscriptions]
  · have hw : s.readWill = [] := by rw [readWill, hfiles, List.take_nil]
    unfold hasClientWill
    simp [hw]
  · unfold hasClientPublishes
    rw [hfiles, Scanner.scan_nil _ (by omega)]
    split
    · rfl
    · split <;> rfl

theorem Effect.added {c : CString} {a : DeviceAddress} {d : UInt32}
    (he : Effect p s rs (.addClient c a d) s') (hok : s'.clientExist = true) :
    ∃ k, FreeSlot rs k ∧ s'.records[k]? = some s'.entryClient ∧ Live k s'.entryClient ∧
      s'.entryClient.text EntryClient.clientId = c.bytes ∧ ∀ x, s'.clientFile x = slotFile k x ∧
      s'.fs.contents (slotFile k x) = s.fs.contents (slotFile k x) := by
  have hopen : s'.blocked = false := by
    cases hb : s'.blocked with
    | true => simp [clientExist, hb] at hok
    | false => rfl
  cases he with
  | other hop => simp [Op.isRegistry] at hop
  | skip hs => rw [show s.blocked = true from hs] at hopen; cases hopen
  | raise => simp [blocked] at hopen
  | begin hop => cases hop
  | found _ _ _ hop => simp [Op.wanted] at hop
  | missing _ hop => simp [Op.wanted] at hop
  | apply hop => cases hop
  | rewrite _ _ _ _ _ _ he => simp [Op.rewrite] at he
  | delete _ _ hop => cases hop
  | add c' a' d' k hop _ _ hk _ hfree hlive hid =>
    obtain ⟨rfl, rfl, rfl⟩ : c = c' ∧ a = a' ∧ d = d' := by simpa using hop
    refine ⟨k, hfree, ?_, hlive, hid, fun x => ⟨hlive.fileName x, ?_⟩⟩
    · rw [records_of_contents (Files.contents_set_self _), SlotTable.getElem?_place hk, if_pos rfl]
    · exact (Files.contents_congr (Files.set_ne _ (slotFile_ne_clientRegistry k x))).trans
        (Files.contents_createSlot k)

/-- From an empty directory on, a client that was just added has no topics, no subscriptions, no
will and no publishes, whoever had its slot before. -/
theorem new_client_starts_clean (h₀ : Fresh s₀) (hdir : ∀ n, s₀.fs n = none)
    (h : Reachable p s₀ g s) {c : CString} {a : DeviceAddress} {d : UInt32}
    (ha : Allowed p g s (.addClient c a d))
    (hok : (s.next p (.addClient c a d)).clientExist = true) :
    (∀ i, (s.next p (.addClient c a d)).getTopicName i = none) ∧
      (s.next p (.addClient c a d)).getClientSubscriptionCount = 0 ∧
      (s.next p (.addClient c a d)).hasClientWill = false ∧
      (s.next p (.addClient c a d)).hasClientPublishes = false := by
  obtain ⟨rs, hi⟩ := h.inv h₀
  obtain ⟨k, hk, -, -, -, hfiles⟩ := (hi.effect_of_allowed ha).added hok
  refine nothing_of_empty fun x => ?_
  obtain ⟨hname, hcontents⟩ := hfiles x
  rw [hname, hcontents]
  exact Files.contents_of_none
    (h.freeSlots h₀ hdir k (by rw [records_of_contents hi.file]; exact hk) x)

theorem new_client_starts_clean_reused :
    let before : List Op :=
      [.begin, .startClientTransaction device1, .addClient device1 address1 60,
        .setClientWilltopic device2 0 false, .setClientWillmessage ⟨[1, 2, 3], by decide⟩,
        .addClientPublish ⟨[4, 5], by decide⟩ 1 false 0 false 0, .deleteClient device1,
        .applyTransaction,
        .startClientTransaction device2]
    let s := setUp.run posix before
    let s' := s.next posix (.addClient device2 address2 60)
    s'.records = [newEntryClient posix device2 0 address2 60] ∧ s'.hasClientWill = false ∧
      s'.hasClientPublishes = false := by
  intro before s s'
  have hr : Reachable posix setUp (runTx posix none setUp before) s :=
    Reachable.init.run (by decide +kernel)
  have ha : Allowed posix (runTx posix none setUp before) s (.addClient device2 address2 60) := by
    decide +kernel
  obtain ⟨-, -, hwill, hpub⟩ := new_client_starts_clean ⟨rfl, rfl⟩ (fun _ => rfl) hr ha
    (by decide +kernel)
  exact ⟨by decide +kernel, hwill, hpub⟩

end SnGateway
