import HvFrame.ReceiverThreads
import HvFrame.UdpSender

/-!
# Draining the queue at shutdown

The worker leaves its loop after a test that finds the queue empty and a grace period that
is never restarted, while the receive thread may still have a packet to push. At exit the
queue is empty exactly when nothing was pushed after the worker's last such test.
-/

namespace HvFrame

namespace ReceiverEvent

def acceptedPacket : ReceiverEvent → Option RxPacket
  | .accepted pkt => some pkt
  | _ => none

def isFlushed : ReceiverEvent → Bool
  | .flushed => true
  | _ => false

/-- The packets pushed since the last `queue.empty()`, after one more event. -/
def sinceEmptyTest (pushes : List RxPacket) : ReceiverEvent → List RxPacket
  | .accepted pkt => pushes ++ [pkt]
  | .rejected pkt => pushes ++ [pkt]
  | .testedEmpty _ => []
  | _ => pushes

end ReceiverEvent

/-- The packets for which `push` returned true. -/
def acceptedPackets (es : List ReceiverEvent) : List RxPacket :=
  es.filterMap ReceiverEvent.acceptedPacket

/-- The packets handed to `pushPacket` before the final `flushAll`. -/
def handedBeforeFlush : List ReceiverEvent → List RxPacket
  | [] => []
  | .flushed :: _ => []
  | .handed pkt :: es => pkt :: handedBeforeFlush es
  | _ :: es => handedBeforeFlush es

def pushesSinceEmptyTest (es : List ReceiverEvent) : List RxPacket :=
  es.foldl ReceiverEvent.sinceEmptyTest []

namespace ReceiverState

def BothEnded (s : ReceiverState) : Prop := s.rx = .ended ∧ s.worker = .ended

/-- Every accepted packet was handed over in time and none is left. -/
def Drained (s : ReceiverState) (es : List ReceiverEvent) : Prop :=
  handedBeforeFlush es = acceptedPackets es ∧ s.queue.items = []

end ReceiverState

namespace WorkerPosition

def inHand : WorkerPosition → List RxPacket
  | .popped pkt => [pkt]
  | .sampled pkt _ => [pkt]
  | _ => []

/-- The worker is past a test that found the queue empty and may not come back. -/
def leaving : WorkerPosition → Bool
  | .startGrace => true
  | .checkGrace => true
  | .flushAll => true
  | .ended => true
  | _ => false

end WorkerPosition

namespace ReceiverState

/-- Where the accepted packets are, and what the queue holds once the worker is leaving. -/
structure ShutdownAccount (es : List ReceiverEvent) (s : ReceiverState) : Prop where
  room : 0 < s.queue.capacity
  account : handedBeforeFlush es ++ s.worker.inHand ++ s.queue.items = acceptedPackets es
  flushed : es.any ReceiverEvent.isFlushed = true ↔ s.worker = .ended
  late : s.worker.leaving = true → (s.queue.items = [] ↔ pushesSinceEmptyTest es = [])

variable {es es' : List ReceiverEvent} {s s' : ReceiverState}

theorem handedBeforeFlush_append (es es' : List ReceiverEvent) :
    handedBeforeFlush (es ++ es') = handedBeforeFlush es ++
      if es.any ReceiverEvent.isFlushed then [] else handedBeforeFlush es' := by
  induction es with
  | nil => rfl
  | cons e es ih => cases e <;> simp [handedBeforeFlush, ReceiverEvent.isFlushed, ih]

theorem handedBeforeFlush_concat (es : List ReceiverEvent) {e : ReceiverEvent}
    (h : handedBeforeFlush [e] = []) : handedBeforeFlush (es ++ [e]) = handedBeforeFlush es := by
  rw [handedBeforeFlush_append, h, ite_self, List.append_nil]

theorem acceptedPackets_concat (es : List ReceiverEvent) (e : ReceiverEvent) :
    acceptedPackets (es ++ [e]) = acceptedPackets es ++ e.acceptedPacket.toList := by
  rw [acceptedPackets, List.filterMap_append, ← acceptedPackets]
  cases h : e.acceptedPacket <;> simp [h]

theorem managed_neutral (es : List ReceiverEvent) (outs : List ManagerOutput) :
    acceptedPackets (es ++ outs.map ReceiverEvent.managed) = acceptedPackets es ∧
      handedBeforeFlush (es ++ outs.map ReceiverEvent.managed) = handedBeforeFlush es ∧
      (es ++ outs.map ReceiverEvent.managed).any ReceiverEvent.isFlushed =
        es.any ReceiverEvent.isFlushed ∧
      pushesSinceEmptyTest (es ++ outs.map ReceiverEvent.managed) = pushesSinceEmptyTest es := by
  induction outs using List.reverseRecOn with
  | nil => simp
  | append_singleton outs o ih =>
    obtain ⟨haccepted, hhanded, hflushed, hsince⟩ := ih
    rw [List.map_append, List.map_singleton, ← List.append_assoc]
    refine ⟨?_, ?_, ?_, ?_⟩
    · rw [acceptedPackets_concat, haccepted]
      exact List.append_nil _
    · rw [handedBeforeFlush_concat _ rfl, hhanded]
    · rw [List.any_append, hflushed]
      exact Bool.or_false _
    · rw [pushesSinceEmptyTest, List.foldl_append, ← pushesSinceEmptyTest, hsince]
      rfl

theorem ShutdownAccount.quiet (h : ShutdownAccount es s) (outs : List ManagerOutput)
    (hqueue : s'.queue = s.queue) (hhand : s'.worker.inHand = s.worker.inHand)
    (hended : s'.worker = .ended ↔ s.worker = .ended)
    (hleaving : s'.worker.leaving = true → s.worker.leaving = true) :
    ShutdownAccount (es ++ outs.map ReceiverEvent.managed) s' := by
  obtain ⟨haccepted, hhanded, hflushed, hsince⟩ := managed_neutral es outs
  refine ⟨hqueue ▸ h.room, ?_, ?_, ?_⟩
  · rw [hhanded, haccepted, hqueue, hhand]
    exact h.account
  · rw [hflushed, hended]
    exact h.flushed
  · intro hl
    rw [hsince, hqueue]
    exact h.late (hleaving hl)

theorem ShutdownAccount.moveOn (h : ShutdownAccount es s) (hqueue : s'.queue = s.queue)
    (hhand : s'.worker.inHand = s.worker.inHand) (hended : s.worker ≠ .ended)
    (hleaving : s'.worker.leaving = false) : ShutdownAccount (es ++ []) s' := by
  refine h.quiet [] hqueue hhand ?_ (fun hl => absurd hl (by simp [hleaving]))
  refine iff_of_false (fun hended' => ?_) hended
  simp [hended', WorkerPosition.leaving] at hleaving

theorem ShutdownAccount.push (h : ShutdownAccount es s) (pkt : RxPacket)
    (hqueue : s'.queue = (s.queue.push pkt).1) (hworker : s'.worker = s.worker) :
    ShutdownAccount (es ++ [if (s.queue.push pkt).2 then .accepted pkt else .rejected pkt]) s' := by
  obtain ⟨hroom, haccount, hflushed, hlate⟩ := h
  rcases s.queue.push_cases pkt with ⟨-, he⟩ | ⟨hfull, he⟩
  · rw [he] at hqueue ⊢
    have hhanded : handedBeforeFlush (es ++ [.accepted pkt]) = handedBeforeFlush es :=
      handedBeforeFlush_concat es rfl
    have haccepted : acceptedPackets (es ++ [.accepted pkt]) = acceptedPackets es ++ [pkt] :=
      acceptedPackets_concat es (.accepted pkt)
    refine ⟨by rw [hqueue]; exact hroom, ?_, ?_, ?_⟩
    · rw [if_pos rfl, hhanded, haccepted, ← haccount, hqueue, hworker]
      simp
    · rw [hworker, ← hflushed]
      simp [ReceiverEvent.isFlushed]
    · intro _
      simp [hqueue, pushesSinceEmptyTest, ReceiverEvent.sinceEmptyTest]
  · rw [he] at hqueue ⊢
    have hhanded : handedBeforeFlush (es ++ [.rejected pkt]) = handedBeforeFlush es :=
      handedBeforeFlush_concat es rfl
    have haccepted : acceptedPackets (es ++ [.rejected pkt]) = acceptedPackets es :=
      (acceptedPackets_concat es (.rejected pkt)).trans (List.append_nil _)
    -- a rejection needs a full queue, and a full queue is not empty
    have hnonempty : s.queue.items ≠ [] := by
      intro hnil
      rw [hnil, List.length_nil] at hfull
      omega
    refine ⟨by rw [hqueue]; exact hroom, ?_, ?_, ?_⟩
    · rw [if_neg (by simp), hhanded, haccepted, ← haccount, hqueue, hworker]
    · rw [hworker, ← hflushed]
      simp [ReceiverEvent.isFlushed]
    · intro _
      simp [hqueue, hnonempty, pushesSinceEmptyTest, ReceiverEvent.sinceEmptyTest]

theorem ShutdownAccount.pop (h : ShutdownAccount es s) {pkt : RxPacket} {rest : List RxPacket}
    (hhand : s.worker.inHand = []) (hitems : s.queue.items = pkt :: rest)
    (hnotEnded : s.worker ≠ .ended) :
    ShutdownAccount (es ++ [])
      { s with queue := { s.queue with items := rest }, worker := .popped pkt } := by
  obtain ⟨hroom, haccount, hflushed, -⟩ := h
  rw [List.append_nil]
  refine ⟨hroom, ?_, ?_, fun hl => by cases hl⟩
  · rw [← haccount, hhand, hitems]
    simp [WorkerPosition.inHand]
  · rw [hflushed]
    simp [hnotEnded]

theorem ShutdownAccount.popUntil (h : ShutdownAccount es s)
    (hworker : s.worker = .popUntil ∨ s.worker = .waiting) :
    ShutdownAccount (es ++ s.workerStep.2) s.workerStep.1 := by
  have hhand : s.worker.inHand = [] := by
    rcases hworker with hw | hw <;> simp [hw, WorkerPosition.inHand]
  have hended : s.worker ≠ .ended := by
    rcases hworker with hw | hw <;> simp [hw]
  rcases s.popUntil_cases hworker with he | he | ⟨pkt, rest, hitems, he⟩ <;> rw [he]
  · exact h.moveOn rfl hhand.symm hended rfl
  · exact h.moveOn rfl hhand.symm hended rfl
  · exact h.pop hhand hitems hended

theorem ShutdownAccount.hand (h : ShutdownAccount es s) {pkt : RxPacket} {queueNow : ℕ}
    (hworker : s.worker = .sampled pkt queueNow) (m : FrameReassemblerManager) :
    ShutdownAccount (es ++ [.handed pkt]) { s with manager := m, worker := .testTimer } := by
  obtain ⟨hroom, haccount, hflushed, -⟩ := h
  rw [hworker] at haccount hflushed
  have hnone : es.any ReceiverEvent.isFlushed = false := by
    rw [← Bool.not_eq_true, hflushed]
    simp
  have haccepted : acceptedPackets (es ++ [.handed pkt]) = acceptedPackets es :=
    (acceptedPackets_concat es (.handed pkt)).trans (List.append_nil _)
  refine ⟨hroom, ?_, ?_, fun hl => by cases hl⟩
  · rw [handedBeforeFlush_append, hnone, haccepted, ← haccount]
    simp [handedBeforeFlush, WorkerPosition.inHand]
  · rw [List.any_append, hnone]
    simp [ReceiverEvent.isFlushed]

/-- The worker tests the queue: when it is empty, nothing has been pushed since. -/
theorem ShutdownAccount.testEmpty (h : ShutdownAccount es s) (hworker : s.worker = .testEmpty) :
    ShutdownAccount (es ++ [.testedEmpty s.queue.empty])
      { s with worker := if s.queue.empty then .startGrace else .popUntil } := by
  obtain ⟨hroom, haccount, hflushed, -⟩ := h
  rw [hworker] at haccount hflushed
  have hhanded : handedBeforeFlush (es ++ [.testedEmpty s.queue.empty]) = handedBeforeFlush es :=
    handedBeforeFlush_concat es rfl
  have haccepted : acceptedPackets (es ++ [.testedEmpty s.queue.empty]) = acceptedPackets es :=
    (acceptedPackets_concat es (.testedEmpty _)).trans (List.append_nil _)
  refine ⟨hroom, ?_, ?_, ?_⟩
  · rw [hhanded, haccepted, ← haccount]
    cases s.queue.empty <;> rfl
  · rw [List.any_append]
    cases hempty : s.queue.empty <;> simpa [ReceiverEvent.isFlushed] using hflushed
  · intro hl
    have hempty : s.queue.empty = true := by
      by_contra hne
      simp [hne, WorkerPosition.leaving] at hl
    have hitems : s.queue.items = [] := by simpa [PacketQueue.empty] using hempty
    simp [hitems, pushesSinceEmptyTest, ReceiverEvent.sinceEmptyTest]

theorem ShutdownAccount.flush (h : ShutdownAccount es s) (hworker : s.worker = .flushAll)
    (m : FrameReassemblerManager) (outs : List ManagerOutput) :
    ShutdownAccount (es ++ .flushed :: outs.map ReceiverEvent.managed)
      { s with manager := m, worker := .ended } := by
  obtain ⟨hroom, haccount, hflushed, hlate⟩ := h
  rw [hworker] at haccount hlate
  rw [← List.singleton_append, ← List.append_assoc]
  obtain ⟨haccepted, hhanded, hany, hsince⟩ := managed_neutral (es ++ [.flushed]) outs
  refine ⟨hroom, ?_, ?_, ?_⟩
  · rw [hhanded, haccepted, handedBeforeFlush_concat es rfl, acceptedPackets_concat]
    simpa [ReceiverEvent.acceptedPacket, WorkerPosition.inHand] using haccount
  · rw [hany]
    simp [ReceiverEvent.isFlushed]
  · intro _
    rw [hsince]
    simpa [pushesSinceEmptyTest, ReceiverEvent.sinceEmptyTest] using hlate rfl

theorem ShutdownAccount.workerStep (h : ShutdownAccount es s) :
    ShutdownAccount (es ++ s.workerStep.2) s.workerStep.1 := by
  cases hworker : s.worker with
  | popUntil => exact h.popUntil (Or.inl hworker)
  | waiting => exact h.popUntil (Or.inr hworker)
  | start =>
    simp only [ReceiverState.workerStep, hworker]
    exact h.moveOn rfl (by rw [hworker]; rfl) (by simp [hworker]) rfl
  | popped pkt =>
    simp only [ReceiverState.workerStep, hworker]
    exact h.moveOn rfl (by rw [hworker]; rfl) (by simp [hworker]) rfl
  | sampled pkt queueNow =>
    simp only [ReceiverState.workerStep, hworker]
    exact h.hand hworker _
  | testTimer =>
    simp only [ReceiverState.workerStep, hworker]
    refine h.moveOn rfl ?_ (by simp [hworker]) ?_ <;> split_ifs <;>
      simp [hworker, WorkerPosition.inHand, WorkerPosition.leaving]
  | timerDue now =>
    simp only [ReceiverState.workerStep, hworker]
    exact h.moveOn rfl (by rw [hworker]; rfl) (by simp [hworker]) rfl
  | pollTimers now queueDropNow =>
    simp only [ReceiverState.workerStep, hworker]
    exact h.quiet _ rfl (by rw [hworker]; rfl) (by simp [hworker]) (fun hl => by cases hl)
  | testShutdown =>
    simp only [ReceiverState.workerStep, hworker]
    refine h.moveOn rfl ?_ (by simp [hworker]) ?_ <;> split_ifs <;>
      simp [hworker, WorkerPosition.inHand, WorkerPosition.leaving]
  | testEmpty =>
    simp only [ReceiverState.workerStep, hworker]
    exact h.testEmpty hworker
  | startGrace =>
    simp only [ReceiverState.workerStep, hworker]
    exact h.quiet [] rfl (by rw [hworker]; rfl) (by simp [hworker])
      (fun _ => by simp [hworker, WorkerPosition.leaving])
  | checkGrace =>
    simp only [ReceiverState.workerStep, hworker]
    refine h.quiet [] rfl ?_ ?_ ?_ <;> split_ifs <;>
      simp [hworker, WorkerPosition.inHand, WorkerPosition.leaving]
  | flushAll =>
    simp only [ReceiverState.workerStep, hworker]
    exact h.flush hworker _ _
  | ended =>
    simp only [ReceiverState.workerStep, hworker]
    exact h.quiet [] rfl rfl Iff.rfl id

/-- One step of any party keeps the account. -/
theorem ShutdownAccount.step (h : ShutdownAccount es s) (a : ReceiverMove) :
    ShutdownAccount (es ++ (s.step a).2) (s.step a).1 := by
  cases a with
  | signal => exact h.quiet [] rfl rfl Iff.rfl id
  | advance elapsed => exact h.quiet [] rfl rfl Iff.rfl id
  | rx outcome =>
    rcases s.rxStep_cases outcome with ⟨position, he⟩ | ⟨pkt, -, he⟩
    · rw [ReceiverState.step, he]
      exact h.quiet [] rfl rfl Iff.rfl id
    · rw [ReceiverState.step, he]
      exact h.push pkt rfl rfl
  | worker => exact h.workerStep

theorem shutdownAccount_init (clock : ℤ) : ShutdownAccount [] (init clock) := by
  have hroom : 0 < Receiver.maxQueueSize := by decide
  exact ⟨hroom, rfl, by simp [init], fun hl => by cases hl⟩

theorem shutdownAccount_run (clock : ℤ) (moves : List ReceiverMove) :
    ShutdownAccount (machine.outputs (init clock) moves) (machine.state (init clock) moves) :=
  machine.invariant (I := fun _ es s => ShutdownAccount es s) (shutdownAccount_init clock)
    (fun _ _ _ a h => h.step a) moves

/-- When both threads have ended, every accepted packet has been handed over before the final
flush exactly if no packet was pushed after the worker's last `queue.empty()`. -/
theorem drained_iff {clock : ℤ} {moves : List ReceiverMove}
    (hended : BothEnded (machine.state (init clock) moves)) :
    Drained (machine.state (init clock) moves) (machine.outputs (init clock) moves) ↔
      pushesSinceEmptyTest (machine.outputs (init clock) moves) = [] := by
  obtain ⟨-, haccount, -, hlate⟩ := shutdownAccount_run clock moves
  rw [hended.2] at haccount hlate
  rw [← hlate rfl]
  constructor
  · exact fun h => h.2
  · intro hitems
    refine ⟨?_, hitems⟩
    rw [← haccount, hitems]
    simp [WorkerPosition.inHand]

/-- One datagram is handed over before the signal, and another is received after it. -/
def busyShutdown : List ReceiverMove :=
  [.rx .timeout, .rx (.received (UdpSender.datagram 1 [7] 0)), .rx .timeout] ++
    List.replicate 6 .worker ++
    [.rx .timeout, .signal, .rx (.received (UdpSender.datagram 2 [8] 0)),
      .rx .timeout, .rx .timeout] ++
    List.replicate 8 .worker ++ [.advance 101000000] ++ List.replicate 9 .worker

theorem drained_busyShutdown :
    (acceptedPackets (machine.outputs (init 1) busyShutdown)).length = 2 ∧
      Drained (machine.state (init 1) busyShutdown) (machine.outputs (init 1) busyShutdown) := by
  have hended : BothEnded (machine.state (init 1) busyShutdown) := ⟨rfl, rfl⟩
  have hlate : (pushesSinceEmptyTest (machine.outputs (init 1) busyShutdown)).length = 0 := by
    decide +kernel
  exact ⟨by decide +kernel, (drained_iff hended).mpr (List.length_eq_zero_iff.mp hlate)⟩

/-- The receive thread passes its test of the flag, the signal comes, the worker finds the
queue empty throughout its grace period, and then a datagram is received and pushed. -/
def losingShutdown : List ReceiverMove :=
  [.rx .timeout, .signal, .worker, .worker, .worker, .worker, .worker, .worker, .worker,
    .advance 101000000, .worker, .worker, .worker, .worker, .worker, .worker, .worker, .worker,
    .rx (.received (UdpSender.datagram 1 [7] 0)), .rx .timeout, .rx .timeout, .worker, .worker]

/-- A packet that `push` accepted is lost. -/
theorem not_always_drained :
    ¬ ∀ clock moves, BothEnded (machine.state (init clock) moves) →
      Drained (machine.state (init clock) moves) (machine.outputs (init clock) moves) := by
  intro h
  have hended : BothEnded (machine.state (init 1) losingShutdown) := ⟨rfl, rfl⟩
  have hitems := (h 1 losingShutdown hended).2
  have hone : (machine.state (init 1) losingShutdown).queue.items.length = 1 := rfl
  rw [hitems] at hone
  cases hone

end ReceiverState

end HvFrame
