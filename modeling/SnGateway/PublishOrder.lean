import SnGateway.PublishQueue

/-!
# The order of buffered publishes

`add_client_publish` fills the last free slot and `get_next_publish` returns the record in the last
used one. A publish added behind another one is therefore returned before it, and from an empty
file the order of the adds is kept in every state of a run exactly when each publish is added while
none is queued: until then the file has one record at most (`QueueInv.length_le_one`).
-/

namespace SnGateway
open RecordStore Persistent
open EntryPublish (key)

namespace QueueRun

/-- The publish that is returned next was added before all the others that are queued. -/
def ReturnsOldest (p : Platform) (q : QueueRun) : Prop :=
  ∀ n, q.s.getNextPublish p = some n → ∀ x ∈ q.queued, x.1 = n.publishId → ∀ y ∈ q.queued, x.2 ≤ y.2

/-- `P` holds in every state of the run. -/
def Along (p : Platform) (P : QueueRun → Prop) : QueueRun → List QueueOp → Prop
  | q, [] => P q
  | q, op :: ops => P q ∧ Along p P (q.step p op) ops

def AdmitsAll (p : Platform) : QueueRun → List QueueOp → Prop
  | _, [] => True
  | q, op :: ops => q.Admits p op ∧ AdmitsAll p (q.step p op) ops

def decidableAdmitsAll (p : Platform) :
    ∀ (q : QueueRun) (ops : List QueueOp), Decidable (q.AdmitsAll p ops)
  | _, [] => .isTrue trivial
  | q, op :: ops =>
    have := decidableAdmitsAll p (q.step p op) ops
    inferInstanceAs (Decidable (_ ∧ _))

instance (p : Platform) (q : QueueRun) (ops : List QueueOp) : Decidable (q.AdmitsAll p ops) :=
  decidableAdmitsAll p q ops

/-- An add finds nothing queued. -/
def FindsEmpty (q : QueueRun) : QueueOp → Prop
  | .add .. => q.queued = []
  | _ => True

instance (q : QueueRun) (op : QueueOp) : Decidable (q.FindsEmpty op) := by
  unfold FindsEmpty
  rcases op <;> infer_instance

def AddsToEmpty (p : Platform) : QueueRun → List QueueOp → Prop
  | _, [] => True
  | q, op :: ops => q.FindsEmpty op ∧ AddsToEmpty p (q.step p op) ops

def decidableAddsToEmpty (p : Platform) :
    ∀ (q : QueueRun) (ops : List QueueOp), Decidable (q.AddsToEmpty p ops)
  | _, [] => .isTrue trivial
  | q, op :: ops =>
    have := decidableAddsToEmpty p (q.step p op) ops
    inferInstanceAs (Decidable (_ ∧ _))

instance (p : Platform) (q : QueueRun) (ops : List QueueOp) : Decidable (q.AddsToEmpty p ops) :=
  decidableAddsToEmpty p q ops

end QueueRun

namespace QueueInv

variable {p : Platform} {q : QueueRun} {rs : List EntryPublish}

theorem length_queued (h : QueueInv q rs) : q.queued.length ≤ rs.length := by
  rw [← List.length_map, h.ids.length_eq, SlotTable.keys]
  exact List.length_filterMap_le key rs

theorem returnsOldest (h : QueueInv q rs) (hone : rs.length ≤ 1) : q.ReturnsOldest p := by
  intro n _ x hx _ y hy
  have hlen := h.length_queued
  obtain ⟨z, hz⟩ : ∃ z, q.queued = [z] := by
    rw [← List.length_eq_one_iff]
    have := List.length_pos_of_mem hx
    omega
  rw [hz, List.mem_singleton] at hx hy
  rw [hx, hy]

theorem fits_add (h : QueueInv q rs) (hone : rs.length ≤ 1) (m : Message) (u : Bool) (i : UInt16) :
    (q.step p (.add m u i)).Fits := by
  obtain ⟨k, hk, -, -, hadd⟩ := h.queue.addClientPublish_eq (p := p) m u i
  have hs : (q.step p (.add m u i)).s = q.s.setPublishes
      (SlotTable.place rs k (EntryPublish.ofMessage m k)) := hadd
  rw [QueueRun.Fits, hs, show (q.s.setPublishes _).fs.contents
    ((q.s.setPublishes _).clientFile .publish) = _ from
    Files.contents_set_self _, length_encode, SlotTable.length_place hk]
  omega

/-- With one record at most, a publish that finds none queued takes the only slot there is. -/
theorem length_le_one (h : QueueInv q rs) (hone : rs.length ≤ 1) {op : QueueOp} (ha : q.Admits p op)
    (he : q.FindsEmpty op) : ∃ rs', QueueInv (q.step p op) rs' ∧ rs'.length ≤ 1 := by
  cases op with
  | add m u i =>
    obtain ⟨k, hk, -, hfull, -, h'⟩ := h.add (h.fits_add (p := p) hone m u i)
    refine ⟨_, h', ?_⟩
    rw [SlotTable.length_place hk]
    have hnone : SlotTable.keys key rs = [] := by
      have hids := h.ids
      rw [show q.queued = [] from he] at hids
      exact hids.nil_eq.symm
    have hfree := List.filterMap_eq_nil_iff.1 hnone
    -- the slot behind the last record is taken only when no record is free
    by_cases hkl : k = rs.length
    · rcases List.eq_nil_or_concat rs with rfl | ⟨l, e, rfl⟩
      · have : k = 0 := hkl
        simp [this]
      · have hmem : e ∈ l.concat e := by simp
        exact absurd (hfree e hmem) (hfull hkl e hmem)
    · omega
  | setMsgId id i =>
    obtain ⟨rs', h', hlen⟩ := h.setMsgId (p := p) (i := i) ha
    exact ⟨rs', h', by omega⟩
  | deliver =>
    obtain ⟨rs', h', hlen⟩ := h.deliver (p := p)
    exact ⟨rs', h', by omega⟩
  | others ops => exact ⟨rs, h.others ha, hone⟩

/-- A publish added behind a queued one is the next to be returned. -/
theorem add_not_returnsOldest (h : QueueInv q rs) (hone : rs.length ≤ 1) {m : Message} {u : Bool}
    {i : UInt16} (hne : q.queued ≠ []) : ¬ (q.step p (.add m u i)).ReturnsOldest p := by
  obtain ⟨k, hk, hfree, -, hqueued, h'⟩ := h.add (h.fits_add (p := p) hone m u i)
  obtain ⟨x, hx⟩ := List.exists_mem_of_ne_nil _ hne
  obtain ⟨j, e, m', hxj, hj, hkey, hm', -⟩ := h.owner x hx
  have hjlt : j < rs.length := (List.getElem?_eq_some_iff.1 hj).1
  have hjk : j ≠ k := by
    rintro rfl
    rw [hfree e hj] at hkey; cases hkey
  -- the record is the only one and in use, so that the slot behind it is taken
  obtain ⟨rfl, rfl⟩ : j = 0 ∧ k = 1 := by omega
  have hnew : (SlotTable.place rs 1 (EntryPublish.ofMessage m (1 : Nat)))[1]? =
      some (EntryPublish.ofMessage m (1 : Nat)) := by
    rw [SlotTable.getElem?_place hk, if_pos rfl]
  have hnewKey : key (EntryPublish.ofMessage m (1 : Nat)) = some 2 :=
    EntryPublish.key_eq_some.2 ⟨EntryPublish.getNat_publishId_ofMessage m (by decide), by decide⟩
  intro hold
  rcases h'.queue.getNextPublish_cases (p := p) with ⟨l, b, hl, hb, habove, hnext⟩ | ⟨hnil, -⟩
  · have hl1 : l = 1 := by
      have hle : ¬ l < 1 := fun hlt => by
        rw [habove 1 _ hlt hnew] at hnewKey
        cases hnewKey
      have := (List.getElem?_eq_some_iff.1 hl).1
      rw [SlotTable.length_place hk] at this
      omega
    subst hl1
    have hid : (EntryPublish.next b).publishId = 2 := (EntryPublish.key_eq_some.1 hb).1
    have hle := hold _ hnext (2, q.added.length) (by rw [hqueued]; simp) hid.symm x
      (by rw [hqueued]; simp [hx])
    have hlt : x.2 < q.added.length := (List.getElem?_eq_some_iff.1 hm').1
    exact absurd hlt (not_lt.2 hle)
  · have hmem := h'.queue.table.mem_keys.2 ⟨1, _, rfl, hnew, hnewKey⟩
    rw [hnil] at hmem; cases hmem

theorem along_iff (h : QueueInv q rs) (hone : rs.length ≤ 1) {ops : List QueueOp}
    (ha : q.AdmitsAll p ops) :
    QueueRun.Along p (QueueRun.ReturnsOldest p) q ops ↔ QueueRun.AddsToEmpty p q ops := by
  induction ops generalizing q rs with
  | nil => exact ⟨fun _ => trivial, fun _ => h.returnsOldest hone⟩
  | cons op ops ih =>
    constructor
    · rintro ⟨-, hrest⟩
      have he : q.FindsEmpty op := by
        cases op with
        | add m u i =>
          by_contra hne
          have hstep : (q.step p (.add m u i)).ReturnsOldest p := by
            cases ops with
            | nil => exact hrest
            | cons op' ops => exact hrest.1
          exact h.add_not_returnsOldest hone hne hstep
        | _ => trivial
      obtain ⟨rs', h', hone'⟩ := h.length_le_one hone ha.1 he
      exact ⟨he, (ih h' hone' ha.2).1 hrest⟩
    · rintro ⟨he, hrest⟩
      obtain ⟨rs', h', hone'⟩ := h.length_le_one hone ha.1 he
      exact ⟨h.returnsOldest hone, (ih h' hone' ha.2).2 hrest⟩

end QueueInv

/-- From an empty publish file the publishes are returned in the order of the adds, in every state
of the run, exactly when each is added while none is queued. -/
theorem publishes_in_order_iff {p : Platform} {s : Persistent} {ops : List QueueOp}
    (hopen : s.blocked = false) (hin : s.notInClientRegistry = false)
    (hempty : s.fs.contents (s.clientFile .publish) = [])
    (ha : (QueueRun.start s).AdmitsAll p ops) :
    QueueRun.Along p (QueueRun.ReturnsOldest p) (.start s) ops ↔
      QueueRun.AddsToEmpty p (.start s) ops := by
  have hq : Queue s [] := ⟨hopen, hin, hempty, by simp, by simp⟩
  exact (QueueInv.start hq (by rw [hq.queuedIds_eq]; rfl)).along_iff (Nat.zero_le 1) ha

theorem publishes_in_order_iff_emptied :
    let s :=
      setUp.run posix [.begin, .startClientTransaction device1, .addClient device1 address1 60]
    let ops : List QueueOp :=
      [.add message1 true 5, .setMsgId 1 9, .deliver, .add message2 false 0, .deliver]
    QueueRun.Along posix (QueueRun.ReturnsOldest posix) (.start s) ops := by
  intro s ops
  have hs : s = setUp.run posix _ := rfl
  have hrun : s.blocked = false ∧ s.notInClientRegistry = false ∧
    s.fs.contents (s.clientFile .publish) = [] ∧
      (QueueRun.start s).AdmitsAll posix ops ∧ (QueueRun.start s).AddsToEmpty posix ops := by
    rw [hs]
    decide +kernel
  obtain ⟨hopen, hin, hempty, ha, hadds⟩ := hrun
  exact (publishes_in_order_iff hopen hin hempty ha).2 hadds

/-- The second of two publishes is returned while the first is queued. -/
theorem later_publish_returned_first :
    let s :=
      setUp.run posix [.begin, .startClientTransaction device1, .addClient device1 address1 60]
    let q := (QueueRun.start s).run posix [.add message1 true 5, .add message2 false 0]
    q.queued = [(1, 0), (2, 1)] ∧ q.s.getNextPublish posix = some (message2.next 2) ∧
      ¬ q.ReturnsOldest posix := by
  intro s q
  have hq : q = (QueueRun.start s).run posix _ := rfl
  have hrun : q.queued = [(1, 0), (2, 1)] ∧ q.s.getNextPublish posix = some (message2.next 2) := by
    rw [hq]
    decide +kernel
  obtain ⟨hqueued, hnext⟩ := hrun
  refine ⟨hqueued, hnext, fun hold => ?_⟩
  have hle := hold _ hnext (2, 1) (by rw [hqueued]; simp) rfl (1, 0) (by rw [hqueued]; simp)
  exact absurd hle (by decide)

end SnGateway
