import HvFrame.ReceiverRefinement

/-!
# The receiver leaves after a signal

The threads are not scheduled by this program, so what is proved is what any fair schedule
gives: once the flag is set, a few moves of the receive thread, enough moves of the worker,
the grace period and enough moves of the worker again end both threads, whatever happens in
between. Each bound is a measure that the moves of one thread lower and no other move raises.
-/

namespace HvFrame

namespace ReceiverMove

def isRx : ReceiverMove → Bool
  | .rx _ => true
  | _ => false

def isWorker : ReceiverMove → Bool
  | .worker => true
  | _ => false

def elapsed : ReceiverMove → ℕ
  | .advance elapsed => elapsed
  | _ => 0

end ReceiverMove

namespace WorkerPosition

/-- The worker has passed the start of its grace period and has not gone back. -/
def pastGrace : WorkerPosition → Bool
  | .checkGrace => true
  | .flushAll => true
  | .ended => true
  | _ => false

end WorkerPosition

namespace ReceiverState

variable {s : ReceiverState}

theorem workerStep_frame (s : ReceiverState) :
    s.workerStep.1.clock = s.clock ∧ s.workerStep.1.shutdown = s.shutdown ∧
      s.workerStep.1.rx = s.rx := by
  cases hw : s.worker with
  | popUntil =>
    rcases s.popUntil_cases (Or.inl hw) with he | he | ⟨pkt, rest, -, he⟩ <;> rw [he] <;>
      exact ⟨rfl, rfl, rfl⟩
  | waiting =>
    rcases s.popUntil_cases (Or.inr hw) with he | he | ⟨pkt, rest, -, he⟩ <;> rw [he] <;>
      exact ⟨rfl, rfl, rfl⟩
  | _ =>
    simp only [workerStep, hw]
    exact ⟨trivial, trivial, trivial⟩

theorem step_clock (s : ReceiverState) (a : ReceiverMove) :
    (s.step a).1.clock = s.clock + a.elapsed := by
  cases a with
  | signal => simp [step, ReceiverMove.elapsed]
  | advance elapsed => rfl
  | rx outcome =>
    rcases s.rxStep_cases outcome with ⟨position, he⟩ | ⟨pkt, -, he⟩ <;>
      simp [step, he, ReceiverMove.elapsed]
  | worker => simp [step, s.workerStep_frame.1, ReceiverMove.elapsed]

theorem state_clock (s : ReceiverState) (moves : List ReceiverMove) :
    (machine.state s moves).clock = s.clock + (moves.map ReceiverMove.elapsed).sum := by
  induction moves generalizing s with
  | nil => simp
  | cons a moves ih =>
    rw [OutputMachine.state_cons, machine_step, ih, step_clock, List.map_cons, List.sum_cons]
    push_cast
    omega

theorem step_shutdown (h : s.shutdown = true) (a : ReceiverMove) :
    (s.step a).1.shutdown = true := by
  cases a with
  | signal => rfl
  | advance elapsed => exact h
  | rx outcome =>
    rcases s.rxStep_cases outcome with ⟨position, he⟩ | ⟨pkt, -, he⟩ <;> simp [step, he, h]
  | worker => rw [step, s.workerStep_frame.2.1, h]

theorem step_rxEnded (h : s.rx = .ended) (a : ReceiverMove) :
    (s.step a).1.rx = .ended ∧ (a ≠ .worker → (s.step a).1.queue = s.queue) := by
  cases a with
  | signal => exact ⟨h, fun _ => rfl⟩
  | advance elapsed => exact ⟨h, fun _ => rfl⟩
  | rx outcome =>
    have hstay : s.rxStep outcome = (s, []) := by simp only [rxStep, h]
    rw [step, hstay]
    exact ⟨h, fun _ => rfl⟩
  | worker => exact ⟨s.workerStep_frame.2.2.trans h, fun hne => absurd rfl hne⟩

theorem step_workerEnded (h : s.worker = .ended) (a : ReceiverMove) :
    (s.step a).1.worker = .ended := by
  by_cases ha : a = .worker
  · subst ha
    rw [step, workerStep, h]
    exact h
  · rw [(step_of_ne_worker ha s).1, h]

/-- What is known of the grace period in a run that began with a positive clock. -/
structure GraceKept (s : ReceiverState) : Prop where
  clock : 0 < s.clock
  started : s.worker.pastGrace = true → s.reminderStart ≠ 0
  past : s.reminderStart ≤ s.clock

theorem workerStep_reminderStart (hw : s.worker ≠ .startGrace) :
    s.workerStep.1.reminderStart = s.reminderStart := by
  cases hworker : s.worker with
  | startGrace => exact absurd hworker hw
  | popUntil =>
    rcases s.popUntil_cases (Or.inl hworker) with he | he | ⟨pkt, rest, -, he⟩ <;> rw [he]
  | waiting =>
    rcases s.popUntil_cases (Or.inr hworker) with he | he | ⟨pkt, rest, -, he⟩ <;> rw [he]
  | _ => simp only [workerStep, hworker]

/-- Only `startGrace` and what follows it are past the start of the grace period. -/
theorem pastGrace_of_workerStep (h : s.workerStep.1.worker.pastGrace = true) :
    s.worker = .startGrace ∨ s.worker.pastGrace = true := by
  cases hw : s.worker with
  | startGrace => exact Or.inl rfl
  | checkGrace => exact Or.inr rfl
  | flushAll => exact Or.inr rfl
  | ended => exact Or.inr rfl
  | popUntil =>
    rcases s.popUntil_cases (Or.inl hw) with he | he | ⟨pkt, rest, -, he⟩ <;>
      simp [he, WorkerPosition.pastGrace] at h
  | waiting =>
    rcases s.popUntil_cases (Or.inr hw) with he | he | ⟨pkt, rest, -, he⟩ <;>
      simp [he, WorkerPosition.pastGrace] at h
  | _ =>
    simp only [workerStep, hw] at h
    try split_ifs at h
    all_goals simp [WorkerPosition.pastGrace] at h

theorem GraceKept.workerStep (h : GraceKept s) : GraceKept s.workerStep.1 := by
  obtain ⟨hclock, hstarted, hpast⟩ := h
  have hclock' := s.workerStep_frame.1
  by_cases hw : s.worker = .startGrace
  · simp only [ReceiverState.workerStep, hw]
    refine ⟨hclock, fun _ => ?_, ?_⟩
    · dsimp only
      split_ifs with hzero
      · omega
      · exact hzero
    · dsimp only
      split_ifs
      · exact le_rfl
      · exact hpast
  · have hkeep := workerStep_reminderStart hw
    refine ⟨by rw [hclock']; exact hclock, fun hp => ?_, by rw [hkeep, hclock']; exact hpast⟩
    rw [hkeep]
    exact hstarted ((pastGrace_of_workerStep hp).resolve_left hw)

theorem step_reminderStart {a : ReceiverMove} (ha : a ≠ .worker) (s : ReceiverState) :
    (s.step a).1.reminderStart = s.reminderStart := by
  cases a with
  | worker => exact absurd rfl ha
  | rx outcome =>
    rcases s.rxStep_cases outcome with ⟨position, he⟩ | ⟨pkt, -, he⟩ <;> simp [step, he]
  | _ => rfl

theorem GraceKept.step (h : GraceKept s) (a : ReceiverMove) : GraceKept (s.step a).1 := by
  by_cases ha : a = .worker
  · subst ha
    exact h.workerStep
  · obtain ⟨hclock, hstarted, hpast⟩ := h
    have hkeep := step_reminderStart ha s
    have hmore := s.step_clock a
    refine ⟨by omega, fun hp => ?_, by omega⟩
    rw [(step_of_ne_worker ha s).1] at hp
    rw [hkeep]
    exact hstarted hp

/-- Both threads are on their way out: the flag is set and nothing is received any more. -/
structure Leaving (s : ReceiverState) : Prop where
  grace : GraceKept s
  flag : s.shutdown = true
  rx : s.rx = .ended

theorem Leaving.step (h : Leaving s) (a : ReceiverMove) : Leaving (s.step a).1 :=
  ⟨h.grace.step a, step_shutdown h.flag a, (step_rxEnded h.rx a).1⟩

theorem Leaving.state (h : Leaving s) (moves : List ReceiverMove) :
    Leaving (machine.state s moves) :=
  machine.state_invariant h (fun _ a h => h.step a) moves

theorem queue_bounded (clock : ℤ) (moves : List ReceiverMove) :
    (machine.state (init clock) moves).queue.items.length ≤ Receiver.maxQueueSize ∧
      (machine.state (init clock) moves).queue.capacity = Receiver.maxQueueSize := by
  refine machine.state_invariant (I := fun s => s.queue.items.length ≤ Receiver.maxQueueSize ∧
    s.queue.capacity = Receiver.maxQueueSize) ⟨Nat.zero_le _, rfl⟩ ?_ moves
  rintro s a ⟨hbound, hcapacity⟩
  cases a with
  | signal => exact ⟨hbound, hcapacity⟩
  | advance elapsed => exact ⟨hbound, hcapacity⟩
  | rx outcome =>
    rcases s.rxStep_cases outcome with ⟨position, he⟩ | ⟨pkt, -, he⟩ <;>
      rw [machine_step, step, he]
    · exact ⟨hbound, hcapacity⟩
    · rcases s.queue.push_cases pkt with ⟨hroom, hpush⟩ | ⟨-, hpush⟩ <;> rw [hpush]
      · refine ⟨?_, hcapacity⟩
        rw [List.length_append, List.length_singleton]
        omega
      · exact ⟨hbound, hcapacity⟩
  | worker =>
    have hpop : s.worker = .popUntil ∨ s.worker = .waiting →
        s.workerStep.1.queue.items.length ≤ Receiver.maxQueueSize ∧
          s.workerStep.1.queue.capacity = Receiver.maxQueueSize := by
      intro hw
      rcases s.popUntil_cases hw with he | he | ⟨pkt, rest, hcons, he⟩ <;> rw [he]
      · exact ⟨hbound, hcapacity⟩
      · exact ⟨hbound, hcapacity⟩
      · rw [hcons, List.length_cons] at hbound
        exact ⟨Nat.le_of_succ_le hbound, hcapacity⟩
    rw [machine_step, step]
    cases hw : s.worker with
    | popUntil => exact hpop (Or.inl hw)
    | waiting => exact hpop (Or.inr hw)
    | _ =>
      simp only [workerStep, hw]
      exact ⟨hbound, hcapacity⟩

end ReceiverState

end HvFrame
