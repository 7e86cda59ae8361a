import SnGateway.PublishQueue

/-!
# Acknowledged publishes

`remove_publish_by_msg_id` looks for the first record with the message id it is given, and then
writes `sizeof(buffer_size)` bytes at `entry_number * sizeof(buffer_size)`, where `buffer_size` is a
`uint16_t`: two zero bytes at twice the record number. The message id of the record lies behind them
in the file, so the record stays in the queue.
-/

namespace SnGateway
open RecordStore

namespace EntryPublish

def hasMsgId (m : UInt16) (e : EntryPublish) : Bool := e.getNat msgId = m.toNat

end EntryPublish

namespace Persistent

/-- The first record with message id `m` becomes an empty one and every other record of the publish
file is kept; when there is none, no file changes. -/
structure Acknowledges (p : Platform) (m : UInt16) (s : Persistent) : Prop where
  removed : ∀ k, s.publishes.findIdx? (EntryPublish.hasMsgId m) = some k →
    (s.removePublishByMsgId p m).publishes = s.publishes.set k (Record.zero 272)
  unchanged : s.publishes.findIdx? (EntryPublish.hasMsgId m) = none →
    (s.removePublishByMsgId p m).fs = s.fs

variable {p : Platform} {m : UInt16} {s : Persistent}

theorem removePublishByMsgId_cases (hopen : s.blocked = false) (hin : s.notInClientRegistry = false)
    (hm : m ≠ 0) :
    (∃ (k : Nat) (e : EntryPublish), s.publishes.findIdx? (EntryPublish.hasMsgId m) = some k ∧
        s.publishes[k]? = some e ∧
        (s.removePublishByMsgId p m).fs =
          s.fs.writeAt p (s.clientFile .publish) (k % 2 ^ 16 * 2) ((Record.zero 272).bytes.take 2) ∧
        (s.removePublishByMsgId p m).clientFile = s.clientFile) ∨
      (s.publishes.findIdx? (EntryPublish.hasMsgId m) = none ∧ s.removePublishByMsgId p m = s) := by
  have hstops : (publishScanner (fun _ => false) (EntryPublish.hasMsgId m)).stops =
      EntryPublish.hasMsgId m := by
    funext e
    simp [Scanner.stops, publishScanner]
  have hscan := (publishScanner (fun _ => false) (EntryPublish.hasMsgId m)).scan_findIdx? (by omega)
    (Nat.two_pow_pos 16) (s.fs.contents (s.clientFile .publish))
  rw [hstops] at hscan
  unfold removePublishByMsgId
  rw [if_neg (by simp [hopen]), if_neg (by simp [hin]), if_neg hm]
  dsimp only
  rcases hscan with ⟨k, e, hfind, hk, hscan⟩ | ⟨hno, k, b, hscan⟩
  · refine .inl ⟨k, e, hfind, hk, ?_⟩
    rw [show (publishScanner (fun _ => false) fun e =>
      decide (e.getNat EntryPublish.msgId = m.toNat)).scan _ = _ from hscan]
    exact ⟨rfl, rfl⟩
  · refine .inr ⟨hno, ?_⟩
    rw [show (publishScanner (fun _ => false) fun e =>
      decide (e.getNat EntryPublish.msgId = m.toNat)).scan _ = _ from hscan]

/-- The two bytes lie in front of the message id of the record, which is found again. -/
theorem msgId_kept {c v : List UInt8} {k pos : Nat} {e : EntryPublish}
    (hk : (whole 272 c)[k]? = some e) (hpos : pos + v.length ≤ k * 272 + EntryPublish.msgId.off) :
    ∃ e' : EntryPublish, (whole 272 (overwrite c pos v))[k]? = some e' ∧
      e'.getNat EntryPublish.msgId = e.getNat EntryPublish.msgId := by
  obtain ⟨hle, -⟩ := (getElem?_whole (by omega)).1 hk
  have hle' : k * 272 + 272 ≤ (overwrite c pos v).length := by rw [length_overwrite]; omega
  have hk' : (whole 272 (overwrite c pos v))[k]? =
      some ⟨((overwrite c pos v).drop (k * 272)).take
        272, by rw [List.length_take, List.length_drop]; omega⟩ :=
    (getElem?_whole (by omega)).2 ⟨hle', rfl⟩
  refine ⟨_, hk', ?_⟩
  rw [Record.getNat, Record.getNat, get_whole (by omega) hk' (by decide),
    get_whole (by omega) hk (by decide),
    drop_overwrite hpos]

/-- An acknowledgement does what it should exactly when no queued publish has its message id. -/
theorem acknowledges_iff (hopen : s.blocked = false) (hin : s.notInClientRegistry = false)
    (hm : m ≠ 0) :
    Acknowledges p m s ↔ ∀ e ∈ s.publishes, e.getNat EntryPublish.msgId ≠ m.toNat := by
  have hnone_iff : s.publishes.findIdx? (EntryPublish.hasMsgId m) = none ↔
      ∀ e ∈ s.publishes, e.getNat EntryPublish.msgId ≠ m.toNat := by
    simp [List.findIdx?_eq_none_iff, EntryPublish.hasMsgId]
  rw [← hnone_iff]
  rcases removePublishByMsgId_cases (p := p) hopen hin hm with ⟨k, e, hfind, hk, hfs, hfile⟩ |
    ⟨hnone, hs⟩
  · rw [hfind]
    refine ⟨fun h => ?_, fun h => by cases h⟩
    have hid : e.getNat EntryPublish.msgId = m.toNat := by
      obtain ⟨hlt, hmatch, -⟩ := List.findIdx?_eq_some_iff_getElem.1 hfind
      rw [← (List.getElem?_eq_some_iff.1 hk).2]
      simpa [EntryPublish.hasMsgId] using hmatch
    have hle := ((getElem?_whole (by omega)).1 hk).1
    have hmod := Nat.mod_le k (2 ^ 16)
    have hfront : k % 2 ^ 16 * 2 + ((Record.zero 272).bytes.take 2).length ≤
        k * 272 + EntryPublish.msgId.off := by
      show _ + 2 ≤ _ + 262
      omega
    obtain ⟨e', hk', hid'⟩ := msgId_kept hk hfront
    have hpub : (s.removePublishByMsgId p m).publishes[k]? = some e' := by
      rw [publishes, hfile, hfs, Files.writeAt, p.seek_of_le true (by omega),
        Files.contents_set_self]
      exact hk'
    rw [h.removed k hfind, List.getElem?_set_self (List.getElem?_eq_some_iff.1 hk).1] at hpub
    rw [← Option.some.inj hpub, Record.getNat_zero _ (by decide), hid] at hid'
    exact absurd (UInt16.toNat_inj.1 hid'.symm) hm
  · refine ⟨fun _ => hnone, fun _ => ⟨fun k hk => ?_, fun _ => by rw [hs]⟩⟩
    rw [hnone] at hk
    cases hk

end Persistent

/-- A client with two queued publishes; the first was sent with message id 9. -/
def sentPublish : Persistent :=
  Persistent.setUp.run posix [.begin, .startClientTransaction device1,
    .addClient device1 address1 60,
    .addClientPublish message1.data 7 false 1 false 0,
    .addClientPublish message2.data 8 true 2 false 0,
    .setPublishMsgId 1 9]

theorem acknowledges_iff_unsent : Persistent.Acknowledges posix 5 sentPublish := by
  have hrun : sentPublish.blocked = false ∧ sentPublish.notInClientRegistry = false ∧
      ∀ e ∈ sentPublish.publishes, e.getNat EntryPublish.msgId ≠ (5 : UInt16).toNat := by
        decide +kernel
  exact (Persistent.acknowledges_iff hrun.1 hrun.2.1 (by decide)).2 hrun.2.2

/-- The acknowledged publish stays in the queue, with the front of its data overwritten. -/
theorem acknowledged_publish_returned :
    let s := sentPublish.next posix (.removePublishByPublishId 2)
    ¬ Persistent.Acknowledges posix 9 s ∧
      (s.getNextPublish posix).map NextPublish.data = some [1, 2, 3] ∧
      ((s.removePublishByMsgId posix 9).getNextPublish posix).map NextPublish.data =
        some [0, 0, 3] := by
  intro s
  have hs : s = sentPublish.next posix _ := rfl
  have hrun : s.publishes.findIdx? (EntryPublish.hasMsgId 9) = some 0 ∧
      (s.removePublishByMsgId posix 9).publishes ≠ s.publishes.set 0 (Record.zero 272) ∧
      (s.getNextPublish posix).map NextPublish.data = some [1, 2, 3] ∧
      ((s.removePublishByMsgId posix 9).getNextPublish posix).map NextPublish.data =
        some [0, 0, 3] := by
    rw [hs]
    decide +kernel
  obtain ⟨hfind, hpub, hbefore, hafter⟩ := hrun
  exact ⟨fun h => hpub (h.removed 0 hfind), hbefore, hafter⟩

end SnGateway
