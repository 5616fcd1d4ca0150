import HvFrame.OutputMachines
import Mathlib.Logic.Function.Basic
import Mathlib.Tactic.SplitIfs

/-!
# The packet queue

`PacketQueue` and the runs of any number of threads on it. A critical section under `mtx_` is
one step. A wait on `cv_` releases the mutex, and since it may end at any time, by a
notification, spuriously or by its timeout, notifications need no state of their own. The
drop counter is counted in `ℕ`.
-/

namespace HvFrame

structure PacketQueue (Packet : Type*) where
  capacity : ℕ
  items : List Packet
  dropped : ℕ
  deriving DecidableEq, Repr

/-- What a pop does when it holds the mutex: wait on `cv_`, or leave with a packet or none. -/
inductive PopOutcome (Packet : Type*) where
  | waits
  | leaves (q : PacketQueue Packet) (out : Option Packet)
  deriving DecidableEq, Repr

namespace PacketQueue

variable {Packet : Type*}

def new (capacity : ℕ) : PacketQueue Packet := ⟨capacity, [], 0⟩

def empty (q : PacketQueue Packet) : Bool := q.items.isEmpty

def size (q : PacketQueue Packet) : ℕ := q.items.length

/-- The newest packet is dropped when the queue is full. -/
def push (q : PacketQueue Packet) (pkt : Packet) : PacketQueue Packet × Bool :=
  if q.capacity ≤ q.size then ({ q with dropped := q.dropped + 1 }, false)
  else ({ q with items := q.items ++ [pkt] }, true)

def tryPop (q : PacketQueue Packet) : PacketQueue Packet × Option Packet :=
  match q.items with
  | [] => (q, none)
  | pkt :: rest => ({ q with items := rest }, some pkt)

/-- The test before every wait: the queue is empty and `shutdown` is not set. -/
def waitOrTake (q : PacketQueue Packet) (shutdown : Bool) : PopOutcome Packet :=
  if q.empty && !shutdown then .waits else .leaves q.tryPop.1 q.tryPop.2

/-- `pop` on entry and after every wake-up: its loop tests again. -/
def pop (q : PacketQueue Packet) (shutdown : Bool) : PopOutcome Packet := q.waitOrTake shutdown

/-- `pop_or_shutdown` on entry and after every wake-up: the predicate is tested again. -/
def popOrShutdown (q : PacketQueue Packet) (shutdown : Bool) : PopOutcome Packet :=
  q.waitOrTake shutdown

/-- `pop_until` on entry. -/
def popUntil (q : PacketQueue Packet) (shutdown : Bool) : PopOutcome Packet :=
  q.waitOrTake shutdown

/-- `pop_until` after its single timed wait, which it never repeats. -/
def popUntilWoken (q : PacketQueue Packet) : PopOutcome Packet := .leaves q.tryPop.1 q.tryPop.2

theorem push_cases (q : PacketQueue Packet) (pkt : Packet) :
    (q.items.length < q.capacity ∧ q.push pkt = ({ q with items := q.items ++ [pkt] }, true)) ∨
      (q.capacity ≤ q.items.length ∧
        q.push pkt = ({ q with dropped := q.dropped + 1 }, false)) := by
  by_cases h : q.capacity ≤ q.items.length
  · exact Or.inr ⟨h, if_pos h⟩
  · exact Or.inl ⟨Nat.lt_of_not_le h, if_neg h⟩

theorem tryPop_cases (q : PacketQueue Packet) :
    (q.items = [] ∧ q.tryPop = (q, none)) ∨
      ∃ pkt rest, q.items = pkt :: rest ∧ q.tryPop = ({ q with items := rest }, some pkt) := by
  cases h : q.items with
  | nil => exact Or.inl ⟨rfl, by simp [tryPop, h]⟩
  | cons pkt rest => exact Or.inr ⟨pkt, rest, rfl, by simp [tryPop, h]⟩

/-- Every pop waits or takes what `try_pop` takes. -/
theorem waitOrTake_cases (q : PacketQueue Packet) (shutdown : Bool) :
    (q.items = [] ∧ shutdown = false ∧ q.waitOrTake shutdown = .waits) ∨
      q.waitOrTake shutdown = .leaves q.tryPop.1 q.tryPop.2 := by
  by_cases h : (q.empty && !shutdown) = true
  · have hboth : q.items = [] ∧ shutdown = false := by simpa [empty] using h
    exact Or.inl ⟨hboth.1, hboth.2, if_pos h⟩
  · exact Or.inr (if_neg h)

end PacketQueue

inductive PopCall where
  | pop
  | popUntil
  | popOrShutdown
  deriving DecidableEq, Repr

namespace PopCall

variable {Packet : Type*}

def enter (call : PopCall) (q : PacketQueue Packet) (shutdown : Bool) : PopOutcome Packet :=
  match call with
  | .pop => q.pop shutdown
  | .popUntil => q.popUntil shutdown
  | .popOrShutdown => q.popOrShutdown shutdown

def woken (call : PopCall) (q : PacketQueue Packet) (shutdown : Bool) : PopOutcome Packet :=
  match call with
  | .pop => q.pop shutdown
  | .popUntil => q.popUntilWoken
  | .popOrShutdown => q.popOrShutdown shutdown

end PopCall

inductive QueueAction (Thread Packet : Type*) where
  | push (t : Thread) (pkt : Packet)
  | tryPop (t : Thread)
  | enter (t : Thread) (call : PopCall)
  | wake (t : Thread)
  | setShutdown

inductive QueueEvent (Packet : Type*) where
  | accepted (pkt : Packet)
  | rejected (pkt : Packet)
  | returned (pkt : Packet)
  | returnedNone
  deriving DecidableEq, Repr

namespace QueueEvent

variable {Packet : Type*}

def acceptedPacket : QueueEvent Packet → Option Packet
  | .accepted pkt => some pkt
  | _ => none

def returnedPacket : QueueEvent Packet → Option Packet
  | .returned pkt => some pkt
  | _ => none

def isRejected : QueueEvent Packet → Bool
  | .rejected _ => true
  | _ => false

def ofPop : Option Packet → QueueEvent Packet
  | some pkt => .returned pkt
  | none => .returnedNone

end QueueEvent

structure QueueSystem (Thread Packet : Type*) where
  queue : PacketQueue Packet
  shutdown : Bool
  waiting : Thread → Option PopCall

namespace QueueSystem

variable {Thread Packet : Type*} [DecidableEq Thread]

def init (capacity : ℕ) : QueueSystem Thread Packet := ⟨.new capacity, false, fun _ => none⟩

def finishPop (s : QueueSystem Thread Packet) (t : Thread) (call : PopCall) :
    PopOutcome Packet → QueueSystem Thread Packet × List (QueueEvent Packet)
  | .waits => ({ s with waiting := Function.update s.waiting t (some call) }, [])
  | .leaves q out =>
      ({ s with queue := q, waiting := Function.update s.waiting t none }, [.ofPop out])

/-- A thread that waits can only wake up; other actions of it do not happen. -/
def step (s : QueueSystem Thread Packet) :
    QueueAction Thread Packet → QueueSystem Thread Packet × List (QueueEvent Packet)
  | .push t pkt =>
      if (s.waiting t).isSome then (s, [])
      else ({ s with queue := (s.queue.push pkt).1 },
        [if (s.queue.push pkt).2 then .accepted pkt else .rejected pkt])
  | .tryPop t =>
      if (s.waiting t).isSome then (s, [])
      else ({ s with queue := s.queue.tryPop.1 }, [.ofPop s.queue.tryPop.2])
  | .enter t call =>
      if (s.waiting t).isSome then (s, [])
      else s.finishPop t call (call.enter s.queue s.shutdown)
  | .wake t =>
      match s.waiting t with
      | none => (s, [])
      | some call => s.finishPop t call (call.woken s.queue s.shutdown)
  | .setShutdown => ({ s with shutdown := true }, [])

def machine (Thread Packet : Type*) [DecidableEq Thread] :
    OutputMachine (QueueSystem Thread Packet) (QueueAction Thread Packet) (QueueEvent Packet) :=
  ⟨step⟩

/-- All that a step can do to the queue, with the events it emits. -/
theorem step_cases (s : QueueSystem Thread Packet) (a : QueueAction Thread Packet) :
    ((s.step a).1.queue = s.queue ∧ (s.step a).2 = []) ∨
      (∃ pkt, (s.step a).1.queue = (s.queue.push pkt).1 ∧
        (s.step a).2 = [if (s.queue.push pkt).2 then .accepted pkt else .rejected pkt]) ∨
      ((s.step a).1.queue = s.queue.tryPop.1 ∧ (s.step a).2 = [.ofPop s.queue.tryPop.2]) := by
  have hpop : ∀ t call outcome,
      outcome = .waits ∨ outcome = .leaves s.queue.tryPop.1 s.queue.tryPop.2 →
        ((s.finishPop t call outcome).1.queue = s.queue ∧ (s.finishPop t call outcome).2 = []) ∨
          ((s.finishPop t call outcome).1.queue = s.queue.tryPop.1 ∧
            (s.finishPop t call outcome).2 = [.ofPop s.queue.tryPop.2]) := by
    rintro t call outcome (rfl | rfl)
    · exact Or.inl ⟨rfl, rfl⟩
    · exact Or.inr ⟨rfl, rfl⟩
  have hwait : s.queue.waitOrTake s.shutdown = .waits ∨
      s.queue.waitOrTake s.shutdown = .leaves s.queue.tryPop.1 s.queue.tryPop.2 :=
    (s.queue.waitOrTake_cases s.shutdown).imp_left (fun h => h.2.2)
  cases a with
  | push t pkt =>
    by_cases ht : (s.waiting t).isSome = true
    · exact Or.inl (by simp [step, ht])
    · exact Or.inr (Or.inl ⟨pkt, by simp [step, ht]⟩)
  | tryPop t =>
    by_cases ht : (s.waiting t).isSome = true
    · exact Or.inl (by simp [step, ht])
    · exact Or.inr (Or.inr (by simp [step, ht]))
  | enter t call =>
    by_cases ht : (s.waiting t).isSome = true
    · exact Or.inl (by simp [step, ht])
    · simp only [step, if_neg ht]
      have henter : call.enter s.queue s.shutdown = s.queue.waitOrTake s.shutdown := by
        cases call <;> rfl
      exact (hpop t call _ (henter ▸ hwait)).imp_right Or.inr
  | wake t =>
    simp only [step]
    cases hw : s.waiting t with
    | none => exact Or.inl ⟨rfl, rfl⟩
    | some call =>
      have hwoken : call.woken s.queue s.shutdown = .waits ∨
          call.woken s.queue s.shutdown = .leaves s.queue.tryPop.1 s.queue.tryPop.2 := by
        cases call with
        | pop => exact hwait
        | popUntil => exact Or.inr rfl
        | popOrShutdown => exact hwait
      exact (hpop t call _ hwoken).imp_right Or.inr
  | setShutdown => exact Or.inl ⟨rfl, rfl⟩

/-- The events of a run account for the queue. -/
structure Lossless (capacity : ℕ) (es : List (QueueEvent Packet)) (s : QueueSystem Thread Packet) :
    Prop where
  capacityEq : s.queue.capacity = capacity
  history : es.filterMap QueueEvent.returnedPacket ++ s.queue.items =
    es.filterMap QueueEvent.acceptedPacket
  bounded : s.queue.items.length ≤ capacity
  counted : s.queue.dropped = es.countP QueueEvent.isRejected

variable {capacity : ℕ} {es : List (QueueEvent Packet)} {s : QueueSystem Thread Packet}

omit [DecidableEq Thread] in
theorem lossless_init (capacity : ℕ) :
    Lossless capacity [] (init capacity : QueueSystem Thread Packet) :=
  ⟨rfl, rfl, Nat.zero_le _, rfl⟩

omit [DecidableEq Thread] in
theorem Lossless.push (h : Lossless capacity es s) (pkt : Packet)
    {s' : QueueSystem Thread Packet} (hqueue : s'.queue = (s.queue.push pkt).1) :
    Lossless capacity
      (es ++ [if (s.queue.push pkt).2 then .accepted pkt else .rejected pkt]) s' := by
  obtain ⟨hcap, hhist, hbound, hcount⟩ := h
  rcases s.queue.push_cases pkt with ⟨hroom, he⟩ | ⟨hfull, he⟩
  · rw [he] at hqueue ⊢
    refine ⟨by rw [hqueue]; exact hcap, ?_, ?_, ?_⟩
    · simp [hqueue, QueueEvent.returnedPacket, QueueEvent.acceptedPacket, ← hhist]
    · rw [hqueue, List.length_append, List.length_singleton]
      omega
    · simpa [hqueue, QueueEvent.isRejected] using hcount
  · rw [he] at hqueue ⊢
    refine ⟨by rw [hqueue]; exact hcap, ?_, by rw [hqueue]; exact hbound, ?_⟩
    · simpa [hqueue, List.filterMap_cons, QueueEvent.returnedPacket, QueueEvent.acceptedPacket]
        using hhist
    · simp [hqueue, QueueEvent.isRejected, hcount]

omit [DecidableEq Thread] in
theorem Lossless.tryPop (h : Lossless capacity es s) {s' : QueueSystem Thread Packet}
    (hqueue : s'.queue = s.queue.tryPop.1) :
    Lossless capacity (es ++ [.ofPop s.queue.tryPop.2]) s' := by
  obtain ⟨hcap, hhist, hbound, hcount⟩ := h
  rcases s.queue.tryPop_cases with ⟨hnil, he⟩ | ⟨pkt, rest, hcons, he⟩
  · rw [he] at hqueue ⊢
    refine ⟨by rw [hqueue]; exact hcap, ?_, by rw [hqueue]; exact hbound, ?_⟩
    · simpa [hqueue, List.filterMap_cons, QueueEvent.ofPop, QueueEvent.returnedPacket,
        QueueEvent.acceptedPacket] using hhist
    · simpa [hqueue, QueueEvent.ofPop, QueueEvent.isRejected] using hcount
  · rw [he] at hqueue ⊢
    rw [hcons] at hhist hbound
    refine ⟨by rw [hqueue]; exact hcap, ?_, ?_, ?_⟩
    · simpa [hqueue, List.filterMap_cons, QueueEvent.ofPop, QueueEvent.returnedPacket,
        QueueEvent.acceptedPacket] using hhist
    · rw [List.length_cons] at hbound
      rw [hqueue]
      exact Nat.le_of_succ_le hbound
    · simpa [hqueue, QueueEvent.ofPop, QueueEvent.isRejected] using hcount

theorem Lossless.step (h : Lossless capacity es s) (a : QueueAction Thread Packet) :
    Lossless capacity (es ++ (s.step a).2) (s.step a).1 := by
  rcases s.step_cases a with ⟨hqueue, he⟩ | ⟨pkt, hqueue, he⟩ | ⟨hqueue, he⟩
  · rw [he, List.append_nil]
    exact ⟨hqueue ▸ h.capacityEq, hqueue ▸ h.history, hqueue ▸ h.bounded, hqueue ▸ h.counted⟩
  · rw [he]
    exact h.push pkt hqueue
  · rw [he]
    exact h.tryPop hqueue

/-- Every run accounts for the queue, whatever the number of threads and the order of steps. -/
theorem lossless_run (capacity : ℕ) (inputs : List (QueueAction Thread Packet)) :
    Lossless capacity ((machine Thread Packet).outputs (init capacity) inputs)
      ((machine Thread Packet).state (init capacity) inputs) :=
  (machine Thread Packet).invariant (I := fun _ es s => Lossless capacity es s)
    (lossless_init capacity) (fun _ _ _ a h => h.step a) inputs

theorem rejected_of_step {a : QueueAction Thread Packet} {pkt : Packet}
    (h : .rejected pkt ∈ (s.step a).2) :
    s.queue.capacity ≤ s.queue.items.length ∧ (s.step a).1.queue.items = s.queue.items := by
  rcases s.step_cases a with ⟨-, he⟩ | ⟨pkt', hqueue, he⟩ | ⟨-, he⟩
  · simp [he] at h
  · rcases s.queue.push_cases pkt' with ⟨-, hpush⟩ | ⟨hfull, hpush⟩
    · simp [he, hpush] at h
    · exact ⟨hfull, by rw [hqueue, hpush]⟩
  · rcases s.queue.tryPop_cases with ⟨-, hpop⟩ | ⟨pkt', rest, -, hpop⟩ <;>
      simp [he, hpop, QueueEvent.ofPop] at h

theorem empty_of_returnedNone {a : QueueAction Thread Packet}
    (h : .returnedNone ∈ (s.step a).2) : s.queue.items = [] := by
  rcases s.step_cases a with ⟨-, he⟩ | ⟨pkt, -, he⟩ | ⟨-, he⟩
  · simp [he] at h
  · cases hpush : (s.queue.push pkt).2 <;> simp [he, hpush] at h
  · rcases s.queue.tryPop_cases with ⟨hnil, -⟩ | ⟨pkt, rest, -, hpop⟩
    · exact hnil
    · simp [he, hpop, QueueEvent.ofPop] at h

/-- The queue is a bounded FIFO that loses nothing but the rejections it counts. -/
theorem lossless_bounded_fifo (capacity : ℕ) (inputs : List (QueueAction Thread Packet)) :
    Lossless capacity ((machine Thread Packet).outputs (init capacity) inputs)
      ((machine Thread Packet).state (init capacity) inputs) ∧
    ∀ x ∈ positions inputs,
      let s := (machine Thread Packet).state (init capacity) x.1
      (∀ pkt, .rejected pkt ∈ (s.step x.2).2 →
        s.queue.items.length = capacity ∧ (s.step x.2).1.queue.items = s.queue.items) ∧
      (.returnedNone ∈ (s.step x.2).2 → s.queue.items = []) := by
  refine ⟨lossless_run capacity inputs, fun x _ => ⟨fun pkt h => ?_, empty_of_returnedNone⟩⟩
  have hrun := lossless_run capacity x.1
  obtain ⟨hfull, hsame⟩ := rejected_of_step h
  rw [hrun.capacityEq] at hfull
  exact ⟨Nat.le_antisymm hrun.bounded hfull, hsame⟩

end QueueSystem

end HvFrame
