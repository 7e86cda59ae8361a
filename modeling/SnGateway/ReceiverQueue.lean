import SnGateway.Lib.Run
import SnGateway.Lib.Threads

/-!
# The queue between the threads of the TCP socket

`Queue<T>`: every connection's thread puts its messages into `receiver_queue`, the gateway's thread
takes them out in `TcpSocket::loop`. A call is a row of steps, one for each statement under the
mutex, and the threads take them in any order; `cond_.wait` may also return without a notification.
What is taken out are the items in the order they were put in (`run_fifo`), no thread is left
waiting next to an item (`run_settles`), and `loop`, which looks before it takes, does not wait at
all (`run_loop`).

`loop` looks without the mutex. That look is one step here that sees the queue before or after a
`push`; the language itself promises nothing for it, since `push` may write at the same time.
-/

namespace SnGateway
open Run Threads

/-- The call a thread is about to make. -/
inductive QueueCall (T : Type) where
  | push (item : T)
  | pop
deriving DecidableEq

/-- Which statement of `push` or `pop` a thread has before it. -/
inductive QueuePhase (T : Type) where
  /-- Not in a call. -/
  | idle
  /-- `mlock(mutex_)`. -/
  | entering (call : QueueCall T)
  /-- `queue_.push(item)`. -/
  | pushing (item : T)
  /-- `mlock.unlock()`. -/
  | unlocking
  /-- `cond_.notify_one()`. -/
  | notifying
  /-- `while (queue_.empty())`. -/
  | checking
  /-- `cond_.wait(mlock)`, which has given the mutex back. -/
  | waiting
  /-- `cond_.wait(mlock)`, which takes the mutex again. -/
  | woken
  /-- `queue_.front()` and `queue_.pop()`. -/
  | popping
  /-- `return item`. -/
  | returning (item : T)
deriving DecidableEq

namespace QueuePhase
variable {T : Type}

/-- The phases that have the mutex. -/
def Holds : QueuePhase T → Prop
  | pushing _ | unlocking | checking | popping | returning _ => True
  | idle | entering _ | notifying | waiting | woken => False

/-- A call of `pop` that can take an item out, or one of `push` that can wake up another thread to
do so. -/
def demand : QueuePhase T → Nat
  | entering .pop | unlocking | notifying | checking | woken | popping => 1
  | idle | entering (.push _) | pushing _ | waiting | returning _ => 0

/-- The steps that are left, those of the thread that is woken up included. -/
def work : QueuePhase T → Nat
  | entering (.push _) => 8
  | pushing _ => 7
  | unlocking => 6
  | notifying => 5
  | entering .pop | woken => 4
  | checking => 3
  | popping => 2
  | returning _ => 1
  | idle | waiting => 0

theorem work_le (p : QueuePhase T) : p.work ≤ 8 := by
  unfold work
  split <;> omega

/-- A call of `pop` that has no item yet and does not wait. -/
def Takes : QueuePhase T → Prop
  | entering .pop | checking | popping => True
  | _ => False

end QueuePhase

/-- `given` and `taken` are all the items that were put in and taken out so far. -/
structure ReceiverQueue (ι T : Type) where
  queue : List T
  owner : Option ι
  phase : ι → QueuePhase T
  given : List T
  taken : List T

/-- What a thread does. -/
inductive QueueEvent (ι T : Type) where
  /-- A call of `push` or `pop`. -/
  | call (t : ι) (call : QueueCall T)
  /-- A call of `TcpSocket::loop`. -/
  | loop (t : ι)
  /-- The mutex is free, and the thread gets it. -/
  | lock (t : ι)
  /-- The next statement of the thread that has the mutex. -/
  | proceed (t : ι)
  /-- `cond_.notify_one()`, and the thread that it wakes up. -/
  | notifyOne (t : ι) (other : Option ι)
  /-- A wait ends without a notification. -/
  | wakeUp (t : ι)

/-- The events of calls that have been made. -/
def QueueEvent.Inner {ι T : Type} : QueueEvent ι T → Prop
  | lock _ | proceed _ | notifyOne _ _ => True
  | call _ _ | loop _ | wakeUp _ => False

/-- The events of a program in which the thread `m` calls `TcpSocket::loop`, and nothing else takes
items out. -/
def QueueEvent.OnlyLoop {ι T : Type} (m : ι) : QueueEvent ι T → Prop
  | call _ c => c ≠ .pop
  | loop t => t = m
  | lock _ | proceed _ | notifyOne _ _ | wakeUp _ => True

namespace ReceiverQueue
variable {ι T : Type} [DecidableEq ι]

/-- The thread goes on. -/
def goTo (t : ι) (p : QueuePhase T) (s : ReceiverQueue ι T) : ReceiverQueue ι T :=
  { s with phase := Function.update s.phase t p }

@[simp] theorem goTo_queue (t : ι) (p : QueuePhase T) (s : ReceiverQueue ι T) :
    (s.goTo t p).queue = s.queue := rfl
@[simp] theorem goTo_owner (t : ι) (p : QueuePhase T) (s : ReceiverQueue ι T) :
    (s.goTo t p).owner = s.owner := rfl
@[simp] theorem goTo_phase (t : ι) (p : QueuePhase T) (s : ReceiverQueue ι T) :
    (s.goTo t p).phase = Function.update s.phase t p := rfl

def start : ReceiverQueue ι T := ⟨[], none, fun _ => .idle, [], []⟩

/-- `TcpSocket::loop` looks at `empty()` without the mutex, which is taken to be one step. -/
def loop (t : ι) (s : ReceiverQueue ι T) : ReceiverQueue ι T :=
  if s.queue.isEmpty then s else s.goTo t (.entering .pop)

/-- The mutex goes to the thread. -/
def lock (t : ι) (s : ReceiverQueue ι T) : Option (ReceiverQueue ι T) :=
  match s.owner with
  | some _ => none
  | none =>
    match s.phase t with
    | .entering (.push item) => some ({ s with owner := some t }.goTo t (.pushing item))
    | .entering .pop => some ({ s with owner := some t }.goTo t .checking)
    | .woken => some ({ s with owner := some t }.goTo t .checking)
    | _ => none

/-- `front()` of an empty queue has no defined result. -/
def proceed (t : ι) (s : ReceiverQueue ι T) : Option (ReceiverQueue ι T) :=
  match s.phase t with
  | .pushing item =>
    some ({ s with queue := s.queue ++ [item], given := s.given ++ [item] }.goTo t .unlocking)
  | .unlocking => some ({ s with owner := none }.goTo t .notifying)
  | .checking =>
    if s.queue.isEmpty then
      some ({ s with owner := none }.goTo t .waiting)
    else some (s.goTo t .popping)
  | .popping =>
    match s.queue with
    | [] => none
    | item :: queue =>
      some ({ s with queue := queue, taken := s.taken ++ [item] }.goTo t (.returning item))
  | .returning _ => some ({ s with owner := none }.goTo t .idle)
  | _ => none

def wakeUp (t : ι) (s : ReceiverQueue ι T) : Option (ReceiverQueue ι T) :=
  match s.phase t with
  | .waiting => some (s.goTo t .woken)
  | _ => none

section
variable [Fintype ι] [DecidableEq T]

/-- One of the waiting threads is woken up, if there is one. -/
def notifyOne (t : ι) (other : Option ι) (s : ReceiverQueue ι T) : Option (ReceiverQueue ι T) :=
  match s.phase t with
  | .notifying =>
    match other with
    | none => if ∀ u, s.phase u ≠ .waiting then some (s.goTo t .idle) else none
    | some u => (s.goTo t .idle).wakeUp u
  | _ => none

def step (s : ReceiverQueue ι T) : QueueEvent ι T → Option (ReceiverQueue ι T)
  | .call t call => if s.phase t = .idle then some (s.goTo t (.entering call)) else none
  | .loop t => if s.phase t = .idle then some (s.loop t) else none
  | .lock t => s.lock t
  | .proceed t => s.proceed t
  | .notifyOne t other => s.notifyOne t other
  | .wakeUp t => s.wakeUp t

end

/-- What the steps do. -/
inductive Next (s : ReceiverQueue ι T) : QueueEvent ι T → ReceiverQueue ι T → Prop
  | call {t : ι} (c : QueueCall T) (hphase : s.phase t = .idle) : Next s (.call t c)
    (s.goTo t (.entering c))
  | loopEmpty {t : ι} : Next s (.loop t) s
  | loop {t : ι} (hphase : s.phase t = .idle) (hqueue : s.queue ≠ []) : Next s (.loop t)
      (s.goTo t (.entering .pop))
  | lockPush {t : ι} {item : T} (hfree : s.owner = none)
      (hphase : s.phase t = .entering (.push item)) :
      Next s (.lock t) ({ s with owner := some t }.goTo t (.pushing item))
  | lockPop {t : ι} (hfree : s.owner = none) (hphase : s.phase t = .entering .pop ∨
      s.phase t = .woken) :
      Next s (.lock t) ({ s with owner := some t }.goTo t .checking)
  | push {t : ι} {item : T} (hphase : s.phase t = .pushing item) :
      Next s (.proceed t) ({ s with queue := s.queue ++ [item], given := s.given ++ [item] }.goTo t
        .unlocking)
  | unlock {t : ι} (hphase : s.phase t = .unlocking) : Next s (.proceed t)
      ({ s with owner := none }.goTo t .notifying)
  | wait {t : ι} (hphase : s.phase t = .checking) (hqueue : s.queue = []) :
      Next s (.proceed t) ({ s with owner := none }.goTo t .waiting)
  | check {t : ι} (hphase : s.phase t = .checking) (hqueue : s.queue ≠ []) : Next s (.proceed t)
      (s.goTo t .popping)
  | pop {t : ι} {item : T} {queue : List T} (hphase : s.phase t = .popping)
      (hqueue : s.queue = item :: queue) :
      Next s (.proceed t) ({ s with queue := queue, taken := s.taken ++ [item] }.goTo t
        (.returning item))
  | ret {t : ι} {item : T} (hphase : s.phase t = .returning item) :
      Next s (.proceed t) ({ s with owner := none }.goTo t .idle)
  | notifyNone {t : ι} (hphase : s.phase t = .notifying) (hnone : ∀ u, s.phase u ≠ .waiting) :
      Next s (.notifyOne t none) (s.goTo t .idle)
  | notifySome {t u : ι} (hphase : s.phase t = .notifying)
      (hwaiting : (s.goTo t .idle).phase u = .waiting) :
      Next s (.notifyOne t (some u)) ((s.goTo t .idle).goTo u .woken)
  | wakeUp {t : ι} (hphase : s.phase t = .waiting) : Next s (.wakeUp t) (s.goTo t .woken)

variable {s s' : ReceiverQueue ι T} {e : QueueEvent ι T} {es is : List (QueueEvent ι T)} {t m : ι}

theorem lock_next (h : s.lock t = some s') : Next s (.lock t) s' := by
  unfold lock at h
  split at h
  · cases h
  · next hfree =>
    split at h
    · next item hphase => cases h; exact .lockPush hfree hphase
    · next hphase => cases h; exact .lockPop hfree (.inl hphase)
    · next hphase => cases h; exact .lockPop hfree (.inr hphase)
    · cases h

theorem proceed_next (h : s.proceed t = some s') : Next s (.proceed t) s' := by
  unfold proceed at h
  split at h
  · next item hphase => cases h; exact .push hphase
  · next hphase => cases h; exact .unlock hphase
  · next hphase =>
    split_ifs at h with hqueue
    · cases h; exact .wait hphase (List.isEmpty_iff.1 hqueue)
    · cases h; exact .check hphase (by simpa using hqueue)
  · next hphase =>
    split at h
    · cases h
    · next item queue hqueue => cases h; exact .pop hphase hqueue
  · next item hphase => cases h; exact .ret hphase
  · cases h

theorem wakeUp_eq_some (h : s.wakeUp t = some s') :
    s.phase t = .waiting ∧ s' = s.goTo t .woken := by
  unfold wakeUp at h
  split at h
  · next hphase => cases h; exact ⟨hphase, rfl⟩
  · cases h

theorem holds_update {phase : ι → QueuePhase T} {p : QueuePhase T} {owner owner' : Option ι}
    (hholds : ∀ u, (phase u).Holds ↔ owner = some u) (hp : p.Holds ↔ owner' = some t)
    (howner : ∀ u, u ≠ t → (owner = some u ↔ owner' = some u)) (u : ι) :
    (Function.update phase t p u).Holds ↔ owner' = some u := by
  rcases update_eq_or phase t u p with ⟨rfl, hu⟩ | ⟨hne, hu⟩
  · rw [hu]; exact hp
  · rw [hu, hholds, howner u hne]

theorem full_update {phase : ι → QueuePhase T} {p : QueuePhase T} {queue : List T}
    (hfull : ∀ u, u ≠ t → phase u = .popping → queue ≠ []) (hp : p = .popping → queue ≠ []) (u : ι)
    (hu : Function.update phase t p u = .popping) : queue ≠ [] := by
  rcases update_eq_or phase t u p with ⟨rfl, hself⟩ | ⟨hne, hother⟩
  · exact hp (hself.symm.trans hu)
  · exact hfull u hne (hother.symm.trans hu)

/-- Only the thread `m` takes items out, where there are some, and nobody waits. -/
structure LoopInv (m : ι) (s : ReceiverQueue ι T) : Prop where
  awake : ∀ t, s.phase t ≠ .waiting ∧ s.phase t ≠ .woken
  takes : ∀ t, (s.phase t).Takes → t = m ∧ s.queue ≠ []

omit [DecidableEq ι] in
theorem LoopInv.start : LoopInv m (start : ReceiverQueue ι T) where
  awake t := by simp [ReceiverQueue.start]
  takes t h := h.elim

omit [DecidableEq ι] in
theorem LoopInv.takes_of_eq (hs : LoopInv m s) {p : QueuePhase T} (hphase : s.phase t = p)
    (hp : p.Takes) : t = m ∧ s.queue ≠ [] :=
  hs.takes t (hphase ▸ hp)

theorem LoopInv.goTo (hs : LoopInv m s) {p : QueuePhase T} {queue : List T} {owner : Option ι}
    {given taken : List T} (hp : p ≠ .waiting ∧ p ≠ .woken) (htakes : p.Takes → t = m ∧ queue ≠ [])
    (hqueue : ∀ u, u ≠ t → (s.phase u).Takes → queue ≠ []) :
    LoopInv m ⟨queue, owner, Function.update s.phase t p, given, taken⟩ where
  awake u := by
    show Function.update s.phase t p u ≠ .waiting ∧ Function.update s.phase t p u ≠ .woken
    rcases update_eq_or s.phase t u p with ⟨-, hself⟩ | ⟨-, hother⟩
    · rw [hself]; exact hp
    · rw [hother]; exact hs.awake u
  takes u hu := by
    change (Function.update s.phase t p u).Takes at hu
    rcases update_eq_or s.phase t u p with ⟨rfl, hself⟩ | ⟨hne, hother⟩
    · exact htakes (hself ▸ hu)
    · rw [hother] at hu
      exact ⟨(hs.takes u hu).1, hqueue u hne hu⟩

section
variable [Fintype ι]

theorem demand_update {phase : ι → QueuePhase T} {p : QueuePhase T} {n n' : Nat}
    (hdemand : (∃ u, phase u = .waiting) → n ≤ total QueuePhase.demand phase) (hp : p ≠ .waiting)
    (hle : n' + (phase t).demand ≤ n + p.demand)
    (hwaiting : ∃ u, Function.update phase t p u = .waiting) :
    n' ≤ total QueuePhase.demand (Function.update phase t p) := by
  obtain ⟨u, hu⟩ := hwaiting
  have htotal := total_update QueuePhase.demand phase t p
  rcases update_eq_or phase t u p with ⟨rfl, hself⟩ | ⟨-, hother⟩
  · exact absurd (hself.symm.trans hu) hp
  · have := hdemand ⟨u, hother.symm.trans hu⟩
    omega

/-- One thread at most has the mutex, the items are in order, and next to a thread that waits there
are no more items than other threads take care of. -/
structure Inv (s : ReceiverQueue ι T) : Prop where
  holds : ∀ t, (s.phase t).Holds ↔ s.owner = some t
  order : s.given = s.taken ++ s.queue
  full : ∀ t, s.phase t = .popping → s.queue ≠ []
  demand : (∃ t, s.phase t = .waiting) → s.queue.length ≤ total QueuePhase.demand s.phase

omit [DecidableEq ι] in
theorem Inv.start : Inv (start : ReceiverQueue ι T) where
  holds t := by simp [ReceiverQueue.start, QueuePhase.Holds]
  order := rfl
  full t h := by cases h
  demand _ := Nat.zero_le _

omit [DecidableEq ι] in
theorem Inv.owner_eq (hs : Inv s) {p : QueuePhase T} (hphase : s.phase t = p) (hp : p.Holds) :
    s.owner = some t :=
  (hs.holds t).1 (hphase ▸ hp)

omit [DecidableEq ι] in
theorem Inv.owner_ne (hs : Inv s) {p : QueuePhase T} (hphase : s.phase t = p) (hp : ¬ p.Holds) :
    s.owner ≠ some t :=
  fun h => hp (hphase ▸ (hs.holds t).2 h)

/-- A thread without the mutex goes on. -/
theorem Inv.goTo (hs : Inv s) {p q : QueuePhase T} (hphase : s.phase t = q) (hq : ¬ q.Holds)
    (hp : ¬ p.Holds) (hne : p ≠ .waiting) (hle : q.demand ≤ p.demand) : Inv (s.goTo t p) where
  holds := holds_update hs.holds (iff_of_false hp (hs.owner_ne hphase hq)) fun _ _ => Iff.rfl
  order := hs.order
  full := full_update (fun u _ => hs.full u) fun h => absurd (h ▸ trivial) hp
  demand := demand_update hs.demand hne (by rw [hphase]; exact Nat.add_le_add_left hle _)

/-- A thread takes the mutex. -/
theorem Inv.lock (hs : Inv s) {p : QueuePhase T} (hfree : s.owner = none) (hp : p.Holds)
    (hpop : p ≠ .popping) (hne : p ≠ .waiting) (hle : (s.phase t).demand ≤ p.demand) :
    Inv ({ s with owner := some t }.goTo t p) where
  holds := holds_update hs.holds (iff_of_true hp rfl) fun u hu => by simp [hfree, hu.symm]
  order := hs.order
  full := full_update (fun u _ => hs.full u) fun h => absurd h hpop
  demand := demand_update hs.demand hne (Nat.add_le_add_left hle _)

/-- The thread with the mutex gives it back. -/
theorem Inv.unlock (hs : Inv s) {p : QueuePhase T} (hown : s.owner = some t) (hp : ¬ p.Holds)
    (hdemand : (∃ u, Function.update s.phase t p u = .waiting) →
      s.queue.length ≤ total QueuePhase.demand (Function.update s.phase t p)) :
    Inv ({ s with owner := none }.goTo t p) where
  holds := holds_update hs.holds (iff_of_false hp (by simp)) fun u hu => by simp [hown, hu.symm]
  order := hs.order
  full := full_update (fun u _ => hs.full u) fun h => absurd (h ▸ trivial) hp
  demand := hdemand

end

section
variable [Fintype ι] [DecidableEq T]

theorem notifyOne_next {other : Option ι} (h : s.notifyOne t other = some s') :
    Next s (.notifyOne t other) s' := by
  unfold notifyOne at h
  split at h
  · next hphase =>
    cases other with
    | none =>
      dsimp only at h
      split_ifs at h with hnone
      cases h
      exact .notifyNone hphase hnone
    | some u =>
      obtain ⟨hwaiting, rfl⟩ := wakeUp_eq_some h
      exact .notifySome hphase hwaiting
  · cases h

theorem step_next (h : step s e = some s') : Next s e s' := by
  cases e with
  | call t call =>
    rw [step] at h
    split_ifs at h with hphase
    cases h
    exact .call call hphase
  | loop t =>
    rw [step, loop] at h
    split_ifs at h with hphase hqueue
    · cases h; exact .loopEmpty
    · cases h; exact .loop hphase (by simpa using hqueue)
  | lock t => exact lock_next h
  | proceed t => exact proceed_next h
  | notifyOne t other => exact notifyOne_next h
  | wakeUp t =>
    obtain ⟨hphase, rfl⟩ := wakeUp_eq_some h
    exact .wakeUp hphase

/-! ### What every order of steps keeps -/

theorem step_inv (hs : Inv s) (h : step s e = some s') : Inv s' := by
  cases step_next h with
  | call c hphase => exact hs.goTo hphase not_false not_false (by simp) (Nat.zero_le _)
  | loopEmpty => exact hs
  | loop hphase hqueue => exact hs.goTo hphase not_false not_false (by simp) (Nat.zero_le _)
  | lockPush hfree hphase =>
    exact hs.lock hfree trivial (by simp) (by simp) (by rw [hphase]; exact Nat.le_refl _)
  | lockPop hfree hphase =>
    refine hs.lock hfree trivial (by simp) (by simp) ?_
    rcases hphase with hphase | hphase <;> rw [hphase] <;> exact Nat.le_refl _
  | push hphase =>
    have hown := hs.owner_eq hphase trivial
    exact {
      holds := holds_update hs.holds (iff_of_true trivial hown) fun _ _ => Iff.rfl
      order := (congrArg (· ++ [_]) hs.order).trans (List.append_assoc ..)
      full := full_update (fun _ _ _ => by simp) (by simp)
      demand := demand_update hs.demand (by simp) (by simp [hphase, QueuePhase.demand]) }
  | unlock hphase =>
    exact hs.unlock (hs.owner_eq hphase trivial) not_false
      (demand_update hs.demand (by simp) (by rw [hphase]; exact Nat.le_refl _))
  | wait hphase hqueue =>
    -- the queue is empty, so nobody has to be woken up
    exact hs.unlock (hs.owner_eq hphase trivial) not_false fun _ => by
      rw [hqueue]
      exact Nat.zero_le _
  | check hphase hqueue =>
    exact {
      holds := holds_update hs.holds (iff_of_true trivial (hs.owner_eq hphase trivial)) fun _ _ =>
        Iff.rfl
      order := hs.order
      full := full_update (fun u _ => hs.full u) fun _ => hqueue
      demand := demand_update hs.demand (by simp) (by rw [hphase]; exact Nat.le_refl _) }
  | @pop t item queue hphase hqueue =>
    have hown := hs.owner_eq hphase trivial
    exact {
      holds := holds_update hs.holds (iff_of_true trivial hown) fun _ _ => Iff.rfl
      order := hs.order.trans (by rw [hqueue]; simp [ReceiverQueue.goTo])
      full := by
        -- another thread that takes an item would have the mutex as well
        refine full_update (fun u hne hu => absurd ?_ hne) (by simp)
        exact (Option.some.inj (hown.symm.trans (hs.owner_eq hu trivial))).symm
      demand := demand_update hs.demand (by simp) (by simp [hphase, hqueue, QueuePhase.demand]) }
  | ret hphase =>
    exact hs.unlock (hs.owner_eq hphase trivial) not_false
      (demand_update hs.demand (by simp) (by rw [hphase]; exact Nat.le_refl _))
  | notifyNone hphase hnone =>
    exact {
      holds := holds_update hs.holds (iff_of_false not_false (hs.owner_ne hphase not_false))
        fun _ _ => Iff.rfl
      order := hs.order
      full := full_update (fun u _ => hs.full u) (by simp)
      demand := by
        rintro ⟨u, hu⟩
        rcases update_eq_or s.phase _ u .idle with ⟨-, hself⟩ | ⟨-, hother⟩
        · cases hself.symm.trans hu
        · exact absurd (hother.symm.trans hu) (hnone u) }
  | @notifySome t u hphase hwaiting =>
    -- the demand goes from one thread to the other
    have hu : u ≠ t ∧ s.phase u = .waiting := by
      rcases update_eq_or s.phase t u .idle with ⟨-, hself⟩ | ⟨hne, hother⟩
      · cases hself.symm.trans hwaiting
      · exact ⟨hne, hother.symm.trans hwaiting⟩
    have hfull : ∀ v, Function.update s.phase t .idle v = .popping → s.queue ≠ [] :=
      full_update (fun v _ => hs.full v) (by simp)
    exact {
      holds := holds_update
        (holds_update hs.holds (iff_of_false not_false (hs.owner_ne hphase not_false)) fun _ _ =>
          Iff.rfl)
        (iff_of_false not_false (hs.owner_ne hu.2 not_false)) fun _ _ => Iff.rfl
      order := hs.order
      full := full_update (fun v _ => hfull v) (by simp)
      demand := fun _ => by
        have hidle := total_update QueuePhase.demand s.phase t .idle
        have hwoken := total_update QueuePhase.demand (Function.update s.phase t .idle) u .woken
        have hle := hs.demand ⟨u, hu.2⟩
        rw [hphase] at hidle
        rw [show Function.update s.phase t .idle u = .waiting from hwaiting] at hwoken
        simp only [QueuePhase.demand] at hidle hwoken
        show s.queue.length ≤ total QueuePhase.demand
          (Function.update (Function.update s.phase t .idle) u .woken)
        omega }
  | wakeUp hphase => exact hs.goTo hphase not_false not_false (by simp) (Nat.zero_le _)

theorem reachable_inv (h : run step start es = some s) : Inv s := by
  have hstep (s : ReceiverQueue ι T) (e : QueueEvent ι T) (s' : ReceiverQueue ι T)
    (hs : Inv s) (_ : True)
      (h : step s e = some s') : Inv s' := step_inv hs h
  exact run_inv hstep .start (fun _ _ => trivial) h

/-- In every order of steps one thread at most is between the mutex and its return, an item is taken
out of a queue that has one, and the items come out in the order they went in, each once. -/
theorem run_fifo (h : run step start es = some s) :
    (∀ t u, (s.phase t).Holds → (s.phase u).Holds → t = u) ∧
      (∀ t, s.phase t = .popping → s.queue ≠ []) ∧
      s.given = s.taken ++ s.queue := by
  have hs := reachable_inv h
  refine ⟨fun t u ht hu => ?_, hs.full, hs.order⟩
  exact Option.some.inj (((hs.holds t).1 ht).symm.trans ((hs.holds u).1 hu))

/-- A thread waits for an item, another one puts it in, and the first one takes it out. -/
def handover : List (QueueEvent (Fin 2) Nat) :=
  [.call 0 .pop, .lock 0, .proceed 0, .call 1 (.push 7), .lock 1, .proceed 1, .proceed 1,
    .notifyOne 1 (some 0), .lock 0,
    .proceed 0, .proceed 0]

theorem run_fifo_handover :
    ∃ s : ReceiverQueue (Fin 2) Nat, run step start handover = some s ∧ s.taken = [7] ∧
    s.given = s.taken ++ s.queue :=
  ⟨_, rfl, rfl, (run_fifo (show run step start handover = some _ from rfl)).2.2⟩

/-! ### No thread is left waiting -/

theorem step_work (h : step s e = some s') (he : e.Inner) :
    total QueuePhase.work s'.phase + 1 ≤ total QueuePhase.work s.phase := by
  have hgoTo (t : ι) (p : QueuePhase T) (hlt : p.work + 1 ≤ (s.phase t).work) :
      total QueuePhase.work (Function.update s.phase t p) + 1 ≤ total QueuePhase.work s.phase := by
    have := total_update QueuePhase.work s.phase t p
    omega
  cases step_next h with
  | call | loopEmpty | loop | wakeUp => exact he.elim
  | lockPush hfree hphase => exact hgoTo _ _ (by rw [hphase]; exact Nat.le_refl _)
  | lockPop hfree hphase =>
    refine hgoTo _ _ ?_
    rcases hphase with hphase | hphase <;> rw [hphase] <;> exact Nat.le_refl _
  | push hphase => exact hgoTo _ _ (by rw [hphase]; exact Nat.le_refl _)
  | unlock hphase => exact hgoTo _ _ (by rw [hphase]; exact Nat.le_refl _)
  | wait hphase => exact hgoTo _ _ (by rw [hphase]; exact Nat.le_add_left 1 2)
  | check hphase => exact hgoTo _ _ (by rw [hphase]; exact Nat.le_refl _)
  | pop hphase => exact hgoTo _ _ (by rw [hphase]; exact Nat.le_refl _)
  | ret hphase => exact hgoTo _ _ (by rw [hphase]; exact Nat.le_refl _)
  | notifyNone hphase => exact hgoTo _ _ (by rw [hphase]; exact Nat.le_add_left 1 4)
  | @notifySome t u hphase hwaiting =>
    -- the thread that is woken up has less to do than the notification was counted for
    have hidle := total_update QueuePhase.work s.phase t .idle
    have hwoken := total_update QueuePhase.work (Function.update s.phase t .idle) u .woken
    rw [hphase] at hidle
    rw [show Function.update s.phase t .idle u = .waiting from hwaiting] at hwoken
    simp only [QueuePhase.work] at hidle hwoken
    show total QueuePhase.work (Function.update (Function.update s.phase t .idle) u .woken) + 1 ≤ _
    omega

/-- Where no thread can go on, each one is idle or waits. -/
theorem atRest (hs : Inv s) (hstuck : ∀ e : QueueEvent ι T, e.Inner → step s e = none) (t : ι) :
    s.phase t = .idle ∨ s.phase t = .waiting := by
  have hlock := hstuck (.lock t) trivial
  have hfree : s.owner = none := by
    by_contra hown
    obtain ⟨u, hu⟩ := Option.ne_none_iff_exists'.1 hown
    have hholds := (hs.holds u).2 hu
    have hproceed := hstuck (.proceed u) trivial
    simp only [step, proceed] at hproceed
    cases hphase : s.phase u with
    | pushing item => rw [hphase] at hproceed; cases hproceed
    | unlocking => rw [hphase] at hproceed; cases hproceed
    | checking =>
      rw [hphase] at hproceed
      dsimp only at hproceed
      split_ifs at hproceed
    | popping =>
      obtain ⟨item, queue, hqueue⟩ := List.exists_cons_of_ne_nil (hs.full u hphase)
      rw [hphase, hqueue] at hproceed
      cases hproceed
    | returning item => rw [hphase] at hproceed; cases hproceed
    | idle | entering c | notifying | waiting | woken => rw [hphase] at hholds; exact hholds
  simp only [step, lock, hfree] at hlock
  cases hphase : s.phase t with
  | idle => exact .inl rfl
  | waiting => exact .inr rfl
  | entering c => rw [hphase] at hlock; cases c <;> cases hlock
  | woken => rw [hphase] at hlock; cases hlock
  | notifying =>
    -- one of the waiting threads can be woken up, or there is none
    by_cases hnone : ∀ u, s.phase u ≠ .waiting
    · have hnotify := hstuck (.notifyOne t none) trivial
      simp [step, notifyOne, hphase, hnone] at hnotify
    · push Not at hnone
      obtain ⟨u, hu⟩ := hnone
      have hne : u ≠ t := by rintro rfl; rw [hphase] at hu; cases hu
      have hnotify := hstuck (.notifyOne t (some u)) trivial
      simp [step, notifyOne, hphase, wakeUp, hne, hu] at hnotify
  | pushing | unlocking | checking | popping | returning =>
    exact absurd hfree (by simp [hs.owner_eq hphase trivial])

/-- The calls that have been made come to an end: after at most eight steps for each thread nobody
can go on, and then every thread is idle or waits for an item of an empty queue. -/
theorem run_settles (h : run step start es = some s) (his : ∀ e ∈ is, e.Inner)
    (h' : run step s is = some s') :
    is.length ≤ Fintype.card ι * 8 ∧
      ((∀ e : QueueEvent ι T, e.Inner → step s' e = none) →
        ∀ t, s'.phase t = .idle ∨ s'.phase t = .waiting ∧ s'.queue = []) := by
  have hstep (s : ReceiverQueue ι T) (e : QueueEvent ι T) (s' : ReceiverQueue ι T) (hs : Inv s)
    (he : e.Inner)
      (h : step s e = some s') :
      Inv s' ∧ total QueuePhase.work s'.phase + 1 ≤ total QueuePhase.work s.phase :=
    ⟨step_inv hs h, step_work h he⟩
  obtain ⟨hs', hle⟩ := run_length (m := fun s => total QueuePhase.work s.phase) hstep
    (reachable_inv h) his h'
  have hcard := total_le_card_mul QueuePhase.work_le s.phase
  refine ⟨by omega, fun hstuck t => ?_⟩
  rcases atRest hs' hstuck t with hidle | hwaiting
  · exact .inl hidle
  · have hzero : total QueuePhase.demand s'.phase = 0 := by
      by_contra hne
      obtain ⟨u, hu⟩ := exists_of_total_pos (Nat.pos_of_ne_zero hne)
      rcases atRest hs' hstuck u with hu' | hu' <;>
        rw [hu'] at hu <;> exact absurd hu (Nat.lt_irrefl 0)
    have hlen := hs'.demand ⟨t, hwaiting⟩
    exact .inr ⟨hwaiting, List.eq_nil_of_length_eq_zero (by omega)⟩

theorem run_settles_handover : ∃ s s' : ReceiverQueue (Fin 2) Nat,
    run step start (handover.take 6) = some s ∧ run step s (handover.drop 6) = some s' ∧
      (handover.drop 6).length ≤ Fintype.card (Fin 2) * 8 := by
  have h : run step start (handover.take 6) = some _ := rfl
  exact ⟨_, _, h, rfl, (run_settles h (by simp [handover, QueueEvent.Inner]) rfl).1⟩

/-! ### The loop of the gateway -/

theorem step_loop (hs : LoopInv m s) (he : e.OnlyLoop m) (h : step s e = some s') :
    LoopInv m s' := by
  have hkeep : ∀ {t : ι}, ∀ u, u ≠ t → (s.phase u).Takes → s.queue ≠ [] :=
    fun u _ hu => (hs.takes u hu).2
  cases step_next h with
  | @call t c hphase =>
    refine hs.goTo ⟨by simp, by simp⟩ (fun htakes => ?_) hkeep
    cases c with
    | push item => exact htakes.elim
    | pop => exact absurd rfl he
  | loopEmpty => exact hs
  | loop hphase hqueue => exact hs.goTo ⟨by simp, by simp⟩ (fun _ => ⟨he, hqueue⟩) hkeep
  | lockPush hfree hphase => exact hs.goTo ⟨by simp, by simp⟩ False.elim hkeep
  | lockPop hfree hphase =>
    refine hs.goTo ⟨by simp, by simp⟩ (fun _ => hs.takes _ ?_) hkeep
    rcases hphase with hphase | hphase
    · rw [hphase]; trivial
    · exact absurd hphase (hs.awake _).2
  | push hphase => exact hs.goTo ⟨by simp, by simp⟩ False.elim fun _ _ _ => by simp
  | unlock hphase => exact hs.goTo ⟨by simp, by simp⟩ False.elim hkeep
  | wait hphase hqueue => exact absurd hqueue (hs.takes_of_eq hphase trivial).2
  | check hphase hqueue =>
    exact hs.goTo ⟨by simp, by simp⟩ (fun _ => hs.takes_of_eq hphase trivial) hkeep
  | pop hphase hqueue =>
    -- only `m` takes items out, so nobody else misses this one
    refine hs.goTo ⟨by simp, by simp⟩ False.elim fun u hne hu => absurd ?_ hne
    rw [(hs.takes u hu).1, (hs.takes_of_eq hphase trivial).1]
  | ret hphase => exact hs.goTo ⟨by simp, by simp⟩ False.elim hkeep
  | notifyNone hphase hnone => exact hs.goTo ⟨by simp, by simp⟩ False.elim hkeep
  | @notifySome t u hphase hwaiting =>
    rcases update_eq_or s.phase t u .idle with ⟨-, hself⟩ | ⟨-, hother⟩
    · cases hself.symm.trans hwaiting
    · exact absurd (hother.symm.trans hwaiting) (hs.awake u).1
  | wakeUp hphase => exact absurd hphase (hs.awake _).1

/-- `TcpSocket::loop` looks at the queue without the mutex. If that look is one step, and as long as
one thread only calls it and nothing else takes items out, that thread never waits: the item it has
seen is still there. -/
theorem run_loop (h : run step start es = some s) (hes : ∀ e ∈ es, e.OnlyLoop m) :
    (∀ t, s.phase t ≠ .waiting ∧ s.phase t ≠ .woken) ∧
      (∀ t, (s.phase t).Takes → t = m ∧ s.queue ≠ []) ∧
      ((∀ e : QueueEvent ι T, e.Inner → step s e = none) → ∀ t, s.phase t = .idle) := by
  have hs : LoopInv m s := run_inv (fun _ _ _ hs he h => step_loop hs he h) .start hes h
  refine ⟨hs.awake, hs.takes, fun hstuck t => ?_⟩
  rcases atRest (reachable_inv h) hstuck t with hidle | hwaiting
  · exact hidle
  · exact absurd hwaiting (hs.awake t).1

/-- The gateway's thread sees an item before the other one is done with it. -/
def looking : List (QueueEvent (Fin 2) Nat) :=
  [.call 1 (.push 7), .lock 1, .proceed 1, .loop 0, .proceed 1, .lock 0, .notifyOne 1 none]

theorem run_loop_looking : ∃ s : ReceiverQueue (Fin 2) Nat, run step start looking = some s ∧
    ∀ t, s.phase t ≠ .waiting ∧ s.phase t ≠ .woken := by
  have h : run step start looking = some _ := rfl
  exact ⟨_, h, (run_loop h (m := 0) (by simp [looking, QueueEvent.OnlyLoop])).1⟩

end

end ReceiverQueue

end SnGateway
