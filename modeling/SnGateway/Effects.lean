import SnGateway.Interface

/-!
# What an operation can change

An operation outside the registry (`Op.isRegistry = false`) leaves the cached record and the
transaction as they are. It sets the error flag, or it changes one file: one of the four files the
cached record names, or `MQTT.SUB`; only `remove_publish_by_msg_id` with message id 0 does both
(`Outcome`, `outcome_step`). Everything proved about whole runs uses this and the specifications of
the registry operations, never the bodies of the other operations.
-/

namespace SnGateway
open RecordStore

/-- The operations that work on `CLIENTS` or open and close transactions. -/
def Op.isRegistry : Op → Bool
  | .begin | .startClientTransaction _ | .startClientTransactionByAddress _ | .applyTransaction
  | .deleteClient _ | .addClient .. | .resetClient .. | .setClientAwaitMessage _ | .setTimeout _
  | .setClientState _ | .setClientAwaitMsgId _ => true
  | _ => false

/-- Which file of the client an operation outside the registry may write. -/
def Op.ending : Op → Option FileEnding
  | .addClientRegistration _ => some .registration
  | .addSubscription .. | .deleteSubscription _ => some .subscribe
  | .setClientWilltopic .. | .setClientWillmessage _ | .deleteWill => some .will
  | .addClientPublish .. | .setPublishMsgId .. | .removePublishByMsgId _ |
      .removePublishByPublishId _ => some .publish
  | _ => none

/-- The operations that may write `MQTT.SUB`. -/
def Op.isCounting : Op → Bool
  | .incrementGlobalSubscriptionCount _ | .decrementGlobalSubscriptionCount _ => true
  | _ => false

namespace Persistent

variable {p : Platform} {s s' : Persistent} {op : Op}

/-- The first record of the client's publish file with the given message id. -/
def msgIdSlot (msgId : UInt16) (s : Persistent) : Option Nat :=
  match (publishScanner (fun _ => false) fun e => e.getNat EntryPublish.msgId = msgId.toNat).scan
      (s.fs.contents (s.clientFile .publish)) with
  | .found k _ => some k
  | .exhausted _ _ _ => none

/-- The states an operation outside the registry can lead to. -/
inductive Outcome (p : Platform) (s : Persistent) (op : Op) : Persistent → Prop where
  | same : Outcome p s op s
  | online (a b : Bool) : Outcome p s op { s with isMqttsnOnline := a, isMqttOnline := b }
  | raise : Outcome p s op { s with error := true }
  | own (x : FileEnding) (fs' : Files) (hx : op.ending = some x) (hopen : s.blocked = false)
      (hfs : ∀ n, n ≠ s.clientFile x → fs' n = s.fs n) : Outcome p s op { s with fs := fs' }
  | shared (fs' : Files) (hop : op.isCounting = true) (hok : s.error = false)
      (hfs : ∀ n, n ≠ mqttSub → fs' n = s.fs n) : Outcome p s op { s with fs := fs' }
  | fallThrough (k : Nat) (hop : op = .removePublishByMsgId 0) (hopen : s.blocked = false)
      (hin : s.notInClientRegistry = false) (hk : s.msgIdSlot 0 = some k) :
      Outcome p s op
        { s with error := true, fs := s.fs.writeAt p (s.clientFile .publish) (k * 2) [0, 0] }

/-- The files an operation outside the registry changes. -/
inductive Touch (s s' : Persistent) : Prop where
  | quiet (hfs : s'.fs = s.fs)
  | own (x : FileEnding) (hopen : s.blocked = false) (hfs : ∀ n, n ≠ s.clientFile x →
      s'.fs n = s.fs n)
  | shared (hok : s.error = false) (hfs : ∀ n, n ≠ mqttSub → s'.fs n = s.fs n)

/-- What all outcomes have in common. -/
structure Local (s s' : Persistent) : Prop where
  entryClient : s'.entryClient = s.entryClient
  notInClientRegistry : s'.notInClientRegistry = s.notInClientRegistry
  transactionStarted : s'.transactionStarted = s.transactionStarted
  error : s.error = true → s'.error = true
  touch : Touch s s'

theorem Outcome.toLocal (h : Outcome p s op s') : Local s s' := by
  cases h with
  | same => exact ⟨rfl, rfl, rfl, id, .quiet rfl⟩
  | online a b => exact ⟨rfl, rfl, rfl, id, .quiet rfl⟩
  | raise => exact ⟨rfl, rfl, rfl, fun _ => rfl, .quiet rfl⟩
  | own x fs' _ hopen hfs => exact ⟨rfl, rfl, rfl, id, .own x hopen hfs⟩
  | shared fs' _ hok hfs => exact ⟨rfl, rfl, rfl, id, .shared hok hfs⟩
  | fallThrough k _ hopen _ _ =>
    exact ⟨rfl, rfl, rfl, fun _ => rfl, .own .publish hopen fun n hn => Files.writeAt_ne p _ _ hn⟩

theorem blocked_of_not {b : Bool} (h : ¬ b = true) : b = false := by simpa using h

theorem outcome_setClientWilltopic (t : CString) (q : UInt8) (r : Bool) :
    Outcome p s (.setClientWilltopic t q r) (s.setClientWilltopic p t q r) := by
  unfold setClientWilltopic updateWill
  split
  · exact .same
  · next hb =>
    split
    · exact .same
    · split
      · exact .same
      · exact .own .will _ rfl (blocked_of_not hb) fun n hn => Files.writeAt_ne p _ _ hn

theorem outcome_setClientWillmessage (m : Payload) :
    Outcome p s (.setClientWillmessage m) (s.setClientWillmessage p m) := by
  unfold setClientWillmessage updateWill
  split
  · exact .same
  · next hb =>
    split
    · exact .same
    · exact .own .will _ rfl (blocked_of_not hb) fun n hn => Files.writeAt_ne p _ _ hn

theorem outcome_deleteWill : Outcome p s .deleteWill s.deleteWill := by
  unfold deleteWill createFile
  split
  · exact .same
  · next hb =>
    split
    · exact .same
    · exact .own .will _ rfl (blocked_of_not hb) fun n hn =>
        (Files.openWrite_ne hn).trans (Files.remove_ne hn)

theorem outcome_isTopicKnown (i : UInt16) : Outcome p s op (s.isTopicKnown i).2 := by
  unfold isTopicKnown
  split
  · exact .same
  · split
    · exact .same
    · split
      · exact .raise
      · dsimp only
        split <;> exact .same

theorem outcome_addClientRegistration (t : CString) :
    Outcome p s (.addClientRegistration t) (s.addClientRegistration p t).2 := by
  unfold addClientRegistration
  split
  · exact .same
  · next hb =>
    split
    · exact .same
    · split
      · exact .raise
      · dsimp only
        split
        · exact .same
        · exact .own .registration _ rfl (blocked_of_not hb) fun n hn => Files.writeAt_ne p _ _ hn

theorem outcome_addSubscription (debug : Bool) (t : Option CString) (i : UInt16) (q : UInt8) :
    Outcome p s (.addSubscription t i q) (s.addSubscription p debug t i q) := by
  unfold addSubscription
  split
  · exact .same
  · next hb =>
    split
    · exact .same
    · split
      · exact .same
      · split
        · exact .same
        · dsimp only
          split
          · exact .same
          · exact .own .subscribe _ rfl (blocked_of_not hb) fun n hn => Files.writeAt_ne p _ _ hn

theorem outcome_deleteSubscription (i : UInt16) :
    Outcome p s (.deleteSubscription i) (s.deleteSubscription p i) := by
  unfold deleteSubscription
  split
  · exact .same
  · next hb =>
    split
    · exact .same
    · dsimp only
      split
      · exact .own .subscribe _ rfl (blocked_of_not hb) fun n hn => Files.writeAt_ne p _ _ hn
      · exact .raise

theorem outcome_decrementGlobalSubscriptionCount (debug : Bool) (t : Option CString) :
    Outcome p s (.decrementGlobalSubscriptionCount t)
      (s.decrementGlobalSubscriptionCount p debug t).2 := by
  unfold decrementGlobalSubscriptionCount
  split
  · exact .same
  · next he =>
    split
    · exact .same
    · split
      · exact .shared _ rfl (blocked_of_not he) fun n hn => Files.writeAt_ne p _ _ hn
      · exact .same

theorem outcome_incrementGlobalSubscriptionCount (debug : Bool) (t : Option CString) :
    Outcome p s (.incrementGlobalSubscriptionCount t)
      (s.incrementGlobalSubscriptionCount p debug t).2 := by
  unfold incrementGlobalSubscriptionCount
  split
  · exact .same
  · next he =>
    split
    · exact .same
    · split
      · exact .shared _ rfl (blocked_of_not he) fun n hn => Files.writeAt_ne p _ _ hn
      · exact .shared _ rfl (blocked_of_not he) fun n hn => Files.writeAt_ne p _ _ hn

theorem outcome_addClientPublish (d : Payload) (i : UInt16) (r : Bool) (q : UInt8) (u : Bool)
    (m : UInt16) :
    Outcome p s (.addClientPublish d i r q u m) (s.addClientPublish p d i r q u m) := by
  unfold addClientPublish
  split
  · exact .same
  · next hb =>
    split
    · exact .same
    · dsimp only
      split
      · exact .same
      · exact .own .publish _ rfl (blocked_of_not hb) fun n hn => Files.writeAt_ne p _ _ hn

theorem outcome_updatePublish (i : UInt16) (f : EntryPublish → EntryPublish)
    (hop : op.ending = some .publish) : Outcome p s op (s.updatePublish p i f) := by
  unfold updatePublish
  split
  · exact .same
  · next hb =>
    split
    · exact .same
    · dsimp only
      split
      · split
        · exact .own .publish _ hop (blocked_of_not hb) fun n hn => Files.writeAt_ne p _ _ hn
        · exact .raise
      · exact .same

theorem outcome_removePublishByMsgId (m : UInt16) :
    Outcome p s (.removePublishByMsgId m) (s.removePublishByMsgId p m) := by
  unfold removePublishByMsgId
  split
  · exact .same
  · next hb =>
    split
    · exact .same
    · next hn =>
      -- the error flag is raised before the loop runs
      have hwrite : (Record.zero 272).bytes.take 2 = [0, 0] := by decide
      dsimp only
      rw [hwrite]
      by_cases hm : m = 0
      · subst hm
        rw [if_pos rfl]
        split
        · next k e hscan =>
          have hk : s.msgIdSlot 0 = some k := by
            unfold msgIdSlot
            rw [show (publishScanner _ _).scan (s.fs.contents (s.clientFile .publish)) =
              .found k e from hscan]
          exact .fallThrough k rfl (blocked_of_not hb) (blocked_of_not hn) hk
        · exact .raise
      · rw [if_neg hm]
        split
        · exact .own .publish _ rfl (blocked_of_not hb) fun n hn => Files.writeAt_ne p _ _ hn
        · exact .same

/-- The outcomes of the operations outside the registry, in either build. -/
theorem outcome_step (debug : Bool) {op : Op} (h : op.isRegistry = false) :
    Outcome p s op (s.step p debug op).2 := by
  cases op with
  | begin | startClientTransaction | startClientTransactionByAddress | applyTransaction |
      deleteClient
  | addClient | resetClient | setClientAwaitMessage | setTimeout | setClientState |
      setClientAwaitMsgId =>
    simp [Op.isRegistry] at h
  | setClientWilltopic t q r => exact outcome_setClientWilltopic t q r
  | setClientWillmessage m => exact outcome_setClientWillmessage m
  | deleteWill => exact outcome_deleteWill
  | isTopicKnown i => exact outcome_isTopicKnown i
  | addClientRegistration t => exact outcome_addClientRegistration t
  | addSubscription t i q => exact outcome_addSubscription debug t i q
  | deleteSubscription i => exact outcome_deleteSubscription i
  | decrementGlobalSubscriptionCount t => exact outcome_decrementGlobalSubscriptionCount debug t
  | incrementGlobalSubscriptionCount t => exact outcome_incrementGlobalSubscriptionCount debug t
  | addClientPublish d i r q u m => exact outcome_addClientPublish d i r q u m
  | setPublishMsgId i m =>
    exact outcome_updatePublish i (fun e => e.putNat EntryPublish.msgId m.toNat) rfl
  | removePublishByMsgId m => exact outcome_removePublishByMsgId m
  | removePublishByPublishId i => exact outcome_updatePublish i (fun _ => Record.zero 272) rfl
  | setMqttsnDisconnected => exact .online false _
  | setMqttDisconnected => exact .online _ false
  | setMqttConnected => exact .online _ true
  | setMqttsnConnected => exact .online true _
  | _ => exact .same

theorem local_next {op : Op} (h : op.isRegistry = false) : Local s (s.next p op) :=
  (outcome_step PERSISTENT_DEBUG h).toLocal

end Persistent

end SnGateway
