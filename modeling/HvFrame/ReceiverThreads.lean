import HvFrame.FrameReassemblerManager
import HvFrame.PacketQueue
import HvFrame.ReceivePath

/-!
# The receiver's threads

`udp_rx_thread`, `frame_worker_thread` and the signal handler as one machine. A thread does
one access to a shared object or one clock reading per step; a run is driven by the list of
who moves next, so every interleaving and every delay is one such list. The clock is the
`steady_clock` in nanoseconds and only advances.
-/

namespace HvFrame

/-- What `poll` and `recvfrom` give the receive thread. -/
inductive PollOutcome where
  | interrupted
  | failed
  | timeout
  | notReadable
  | received (datagram : List UInt8)
  deriving DecidableEq, Repr

inductive RxPosition where
  | testShutdown
  | polling
  | pushing (pkt : RxPacket)
  | ended

/-- Where `frame_worker_thread` is. `popped` is before its `queue.dropped()`, `sampled` before
`pushPacket`, `timerDue` before the `queue.dropped()` of `pollTimers`. -/
inductive WorkerPosition where
  | start
  | popUntil
  | waiting
  | popped (pkt : RxPacket)
  | sampled (pkt : RxPacket) (queueNow : ℕ)
  | testTimer
  | timerDue (now : ℤ)
  | pollTimers (now : ℤ) (queueDropNow : ℕ)
  | testShutdown
  | testEmpty
  | startGrace
  | checkGrace
  | flushAll
  | ended

/-- `reminderStart` is the function's static, whose epoch value 0 stands for unset. -/
structure ReceiverState where
  queue : PacketQueue RxPacket
  shutdown : Bool
  clock : ℤ
  rx : RxPosition
  worker : WorkerPosition
  manager : FrameReassemblerManager
  lastTimer : ℤ
  reminderStart : ℤ

/-- Who moves next. The outcome matters only when the receive thread is at its `poll`. -/
inductive ReceiverMove where
  | signal
  | advance (elapsed : ℕ)
  | rx (outcome : PollOutcome)
  | worker

inductive ReceiverEvent where
  | accepted (pkt : RxPacket)
  | rejected (pkt : RxPacket)
  | handed (pkt : RxPacket)
  | testedEmpty (empty : Bool)
  | flushed
  | managed (out : ManagerOutput)

namespace ReceiverState

def init (clock : ℤ) : ReceiverState where
  queue := .new Receiver.maxQueueSize
  shutdown := false
  clock := clock
  rx := .testShutdown
  worker := .start
  manager := .new Receiver.maxFrameSize Receiver.payloadStride
  lastTimer := 0
  reminderStart := 0

/-- The loop of `udp_rx_thread` after `poll` returned. -/
def rxPolled : PollOutcome → RxPosition
  | .interrupted => .testShutdown
  | .failed => .ended
  | .timeout => .testShutdown
  | .notReadable => .testShutdown
  | .received datagram =>
      match rxDatagram (datagram.take Receiver.bufSize) with
      | none => .testShutdown
      | some pkt => .pushing pkt

def rxStep (s : ReceiverState) (outcome : PollOutcome) : ReceiverState × List ReceiverEvent :=
  match s.rx with
  | .testShutdown => ({ s with rx := if s.shutdown then .ended else .polling }, [])
  | .polling => ({ s with rx := rxPolled outcome }, [])
  | .pushing pkt =>
      ({ s with queue := (s.queue.push pkt).1, rx := .testShutdown },
        [if (s.queue.push pkt).2 then .accepted pkt else .rejected pkt])
  | .ended => (s, [])

/-- The worker after one critical section of `pop_until`. -/
def afterPop (s : ReceiverState) : PopOutcome RxPacket → ReceiverState
  | .waits => { s with worker := .waiting }
  | .leaves q none => { s with queue := q, worker := .testTimer }
  | .leaves q (some pkt) => { s with queue := q, worker := .popped pkt }

def workerStep (s : ReceiverState) : ReceiverState × List ReceiverEvent :=
  match s.worker with
  | .start => ({ s with lastTimer := s.clock, worker := .popUntil }, [])
  | .popUntil => (s.afterPop (s.queue.popUntil s.shutdown), [])
  | .waiting => (s.afterPop s.queue.popUntilWoken, [])
  | .popped pkt => ({ s with worker := .sampled pkt s.queue.dropped }, [])
  | .sampled pkt queueNow =>
      ({ s with manager := s.manager.pushPacket pkt queueNow s.clock, worker := .testTimer },
        [.handed pkt])
  | .testTimer =>
      ({ s with worker :=
          if 5 * 1000000 ≤ s.clock - s.lastTimer then .timerDue s.clock else .testShutdown }, [])
  | .timerDue now => ({ s with worker := .pollTimers now s.queue.dropped }, [])
  | .pollTimers now queueDropNow =>
      let polled := s.manager.pollTimers queueDropNow s.clock
      ({ s with manager := polled.1, lastTimer := now, worker := .testShutdown },
        polled.2.map .managed)
  | .testShutdown => ({ s with worker := if s.shutdown then .testEmpty else .popUntil }, [])
  | .testEmpty =>
      ({ s with worker := if s.queue.empty then .startGrace else .popUntil },
        [.testedEmpty s.queue.empty])
  | .startGrace =>
      ({ s with
          reminderStart := if s.reminderStart = 0 then s.clock else s.reminderStart
          worker := .checkGrace }, [])
  | .checkGrace =>
      ({ s with worker :=
          if 100 * 1000000 < s.clock - s.reminderStart then .flushAll else .popUntil }, [])
  | .flushAll =>
      let flushed := s.manager.flushAll
      ({ s with manager := flushed.1, worker := .ended }, .flushed :: flushed.2.map .managed)
  | .ended => (s, [])

def step (s : ReceiverState) : ReceiverMove → ReceiverState × List ReceiverEvent
  | .signal => ({ s with shutdown := true }, [])
  | .advance elapsed => ({ s with clock := s.clock + elapsed }, [])
  | .rx outcome => s.rxStep outcome
  | .worker => s.workerStep

def machine : OutputMachine ReceiverState ReceiverMove ReceiverEvent := ⟨step⟩

@[simp] theorem machine_step (s : ReceiverState) (a : ReceiverMove) : machine.step s a = s.step a :=
  rfl

theorem rxStep_cases (s : ReceiverState) (outcome : PollOutcome) :
    (∃ position, s.rxStep outcome = ({ s with rx := position }, [])) ∨
      ∃ pkt, s.rx = .pushing pkt ∧ s.rxStep outcome =
        ({ s with queue := (s.queue.push pkt).1, rx := .testShutdown },
          [if (s.queue.push pkt).2 then .accepted pkt else .rejected pkt]) := by
  cases h : s.rx with
  | testShutdown =>
    exact Or.inl ⟨if s.shutdown then .ended else .polling, by simp only [rxStep, h]⟩
  | polling => exact Or.inl ⟨rxPolled outcome, by simp only [rxStep, h]⟩
  | pushing pkt => exact Or.inr ⟨pkt, rfl, by simp only [rxStep, h]⟩
  | ended =>
    have hstay : s.rxStep outcome = (s, []) := by simp only [rxStep, h]
    exact Or.inl ⟨s.rx, hstay⟩

/-- One critical section of `pop_until` waits, finds nothing, or takes the front packet. -/
theorem popUntil_cases (s : ReceiverState) (h : s.worker = .popUntil ∨ s.worker = .waiting) :
    s.workerStep = ({ s with worker := .waiting }, []) ∨
      s.workerStep = ({ s with worker := .testTimer }, []) ∨
      ∃ pkt rest, s.queue.items = pkt :: rest ∧ s.workerStep =
        ({ s with queue := { s.queue with items := rest }, worker := .popped pkt }, []) := by
  have htake : s.afterPop (.leaves s.queue.tryPop.1 s.queue.tryPop.2) =
        { s with worker := .testTimer } ∨
      ∃ pkt rest, s.queue.items = pkt :: rest ∧
        s.afterPop (.leaves s.queue.tryPop.1 s.queue.tryPop.2) =
          { s with queue := { s.queue with items := rest }, worker := .popped pkt } := by
    rcases s.queue.tryPop_cases with ⟨-, he⟩ | ⟨pkt, rest, hcons, he⟩
    · exact Or.inl (by rw [he]; rfl)
    · exact Or.inr ⟨pkt, rest, hcons, by rw [he]; rfl⟩
  have hleaves : s.workerStep = (s.afterPop (.leaves s.queue.tryPop.1 s.queue.tryPop.2), []) →
      s.workerStep = ({ s with worker := .waiting }, []) ∨
        s.workerStep = ({ s with worker := .testTimer }, []) ∨
        ∃ pkt rest, s.queue.items = pkt :: rest ∧ s.workerStep =
          ({ s with queue := { s.queue with items := rest }, worker := .popped pkt }, []) := by
    intro hstep
    rcases htake with he | ⟨pkt, rest, hcons, he⟩
    · exact Or.inr (Or.inl (by rw [hstep, he]))
    · exact Or.inr (Or.inr ⟨pkt, rest, hcons, by rw [hstep, he]⟩)
  rcases h with h | h
  · rcases s.queue.waitOrTake_cases s.shutdown with ⟨-, -, he⟩ | he
    · exact Or.inl (by simp only [workerStep, h, PacketQueue.popUntil, he]; rfl)
    · exact hleaves (by simp only [workerStep, h, PacketQueue.popUntil, he])
  · exact hleaves (by simp only [workerStep, h, PacketQueue.popUntilWoken])

theorem popUntil_frame (s : ReceiverState) (h : s.worker = .popUntil ∨ s.worker = .waiting) :
    s.workerStep.2 = [] ∧ s.workerStep.1.manager = s.manager ∧
      s.workerStep.1.queue.dropped = s.queue.dropped ∧
      (s.workerStep.1.worker = .waiting ∨ s.workerStep.1.worker = .testTimer ∨
        ∃ pkt, s.workerStep.1.worker = .popped pkt) := by
  rcases s.popUntil_cases h with he | he | ⟨pkt, rest, -, he⟩ <;> rw [he]
  · exact ⟨rfl, rfl, rfl, Or.inl rfl⟩
  · exact ⟨rfl, rfl, rfl, Or.inr (Or.inl rfl)⟩
  · exact ⟨rfl, rfl, rfl, Or.inr (Or.inr ⟨pkt, rfl⟩)⟩

/-- All that a worker step does to the manager: hand over a packet, poll, flush, or nothing. -/
theorem workerStep_cases (s : ReceiverState) :
    (∃ pkt queueNow, s.worker = .sampled pkt queueNow ∧ s.workerStep =
      ({ s with manager := s.manager.pushPacket pkt queueNow s.clock, worker := .testTimer },
        [.handed pkt])) ∨
    (∃ now drops, s.worker = .pollTimers now drops ∧ s.workerStep =
      ({ s with
          manager := (s.manager.pollTimers drops s.clock).1
          lastTimer := now
          worker := .testShutdown },
        (s.manager.pollTimers drops s.clock).2.map ReceiverEvent.managed)) ∨
    (s.worker = .flushAll ∧ s.workerStep =
      ({ s with manager := s.manager.flushAll.1, worker := .ended },
        .flushed :: s.manager.flushAll.2.map ReceiverEvent.managed)) ∨
    ((∀ pkt queueNow, s.worker ≠ .sampled pkt queueNow) ∧ s.workerStep.1.manager = s.manager ∧
      ∀ out, .managed out ∉ s.workerStep.2) := by
  cases h : s.worker with
  | sampled pkt queueNow => exact Or.inl ⟨pkt, queueNow, rfl, by simp only [workerStep, h]⟩
  | pollTimers now drops =>
    exact Or.inr (Or.inl ⟨now, drops, rfl, by simp only [workerStep, h]⟩)
  | flushAll => exact Or.inr (Or.inr (Or.inl ⟨rfl, by simp only [workerStep, h]⟩))
  | popUntil =>
    obtain ⟨hout, hmanager, -⟩ := s.popUntil_frame (Or.inl h)
    exact Or.inr (Or.inr (Or.inr ⟨by simp, hmanager, by simp [hout]⟩))
  | waiting =>
    obtain ⟨hout, hmanager, -⟩ := s.popUntil_frame (Or.inr h)
    exact Or.inr (Or.inr (Or.inr ⟨by simp, hmanager, by simp [hout]⟩))
  | _ => exact Or.inr (Or.inr (Or.inr ⟨by simp, by simp [workerStep, h]⟩))

theorem step_of_ne_worker {a : ReceiverMove} (h : a ≠ .worker) (s : ReceiverState) :
    (s.step a).1.worker = s.worker ∧ (s.step a).1.manager = s.manager ∧
      ∀ out, .managed out ∉ (s.step a).2 := by
  cases a with
  | signal => exact ⟨rfl, rfl, by simp [step]⟩
  | advance elapsed => exact ⟨rfl, rfl, by simp [step]⟩
  | rx outcome =>
    rcases s.rxStep_cases outcome with ⟨position, he⟩ | ⟨pkt, -, he⟩
    · simp [step, he]
    · cases hpush : (s.queue.push pkt).2 <;> simp [step, he, hpush]
  | worker => exact absurd rfl h

/-- The manager of a run is in a state that calls on a fresh manager reach. -/
theorem manager_reachable (clock : ℤ) (moves : List ReceiverMove) :
    ∃ calls, (machine.state (init clock) moves).manager = FrameReassemblerManager.machine.state
      (FrameReassemblerManager.new Receiver.maxFrameSize Receiver.payloadStride) calls := by
  refine machine.state_invariant (I := fun s => ∃ calls, s.manager =
    FrameReassemblerManager.machine.state (FrameReassemblerManager.new Receiver.maxFrameSize
      Receiver.payloadStride) calls) ⟨[], rfl⟩ ?_ moves
  rintro s a ⟨calls, hcalls⟩
  have hcall : ∀ c, (s.step a).1.manager = (s.manager.step c).1 → ∃ calls, (s.step a).1.manager =
      FrameReassemblerManager.machine.state (FrameReassemblerManager.new Receiver.maxFrameSize
        Receiver.payloadStride) calls := by
    intro c hc
    refine ⟨calls ++ [c], ?_⟩
    rw [hc, hcalls, OutputMachine.state_append]
    rfl
  by_cases ha : a = .worker
  · subst ha
    rcases s.workerStep_cases with ⟨pkt, queueNow, -, he⟩ | ⟨now, drops, -, he⟩ | ⟨-, he⟩ |
      ⟨-, he, -⟩
    · exact hcall ⟨s.clock, .pushPacket pkt queueNow⟩ (by rw [step, he]; rfl)
    · exact hcall ⟨s.clock, .pollTimers drops⟩ (by rw [step, he]; rfl)
    · exact hcall ⟨s.clock, .flushAll⟩ (by rw [step, he]; rfl)
    · exact ⟨calls, he.trans hcalls⟩
  · exact ⟨calls, (step_of_ne_worker ha s).2.1.trans hcalls⟩

end ReceiverState

end HvFrame
