import HvFrame.FrameTransfer
import HvFrame.NetworkRuns

/-!
# The receiver comes to rest

When datagrams stop coming, the receive thread hands over the packet it may hold, the worker
empties the queue, and 30 ms later it has reported what is live. Whatever state the receiver was
in, nothing is left in it unless the worker has come to its end.
-/

namespace HvFrame

/-- A bound on the moves of the worker before it looks at the queue again. -/
def WorkerPosition.toPop : WorkerPosition → ℕ
  | .popUntil => 0
  | .waiting => 0
  | .start => 1
  | .ended => 0
  | .flushAll => 0
  | .checkGrace => 1
  | .startGrace => 2
  | .testEmpty => 3
  | .testShutdown => 4
  | .pollTimers .. => 5
  | .timerDue _ => 6
  | .testTimer => 7
  | .sampled .. => 8
  | .popped _ => 9

namespace ReceiverState

variable {s : ReceiverState} {moves : List ReceiverMove}

def Quiet (moves : List ReceiverMove) : Prop := ∀ a ∈ moves, offered a = none

theorem Quiet.left {later : List ReceiverMove} (h : Quiet (moves ++ later)) : Quiet moves :=
  fun a ha => h a (List.mem_append_left _ ha)

theorem Quiet.right {later : List ReceiverMove} (h : Quiet (moves ++ later)) : Quiet later :=
  fun a ha => h a (List.mem_append_right _ ha)

theorem rxPolled_inHand {outcome : PollOutcome} (h : offered (.rx outcome) = none) :
    (rxPolled outcome).inHand = [] := by
  cases outcome with
  | received datagram => cases h
  | _ => rfl

theorem step_rx_inHand {a : ReceiverMove} (ha : offered a = none)
    (h : s.rx.inHand = [] ∨ a.isRx = true) : (s.step a).1.rx.inHand = [] := by
  cases a with
  | rx outcome =>
    cases hrx : s.rx with
    | polling =>
      simp only [ReceiverState.step, rxStep, hrx]
      exact rxPolled_inHand ha
    | testShutdown =>
      simp only [ReceiverState.step, rxStep, hrx]
      split_ifs <;> rfl
    | _ => simp [ReceiverState.step, rxStep, hrx, RxPosition.inHand]
  | worker =>
    rw [ReceiverState.step, s.workerStep_frame.2.2]
    exact h.resolve_right (by simp [ReceiverMove.isRx])
  | _ => exact h.resolve_right (by simp [ReceiverMove.isRx])

theorem rx_inHand_run (hquiet : Quiet moves) (h : s.rx.inHand = []) :
    (machine.state s moves).rx.inHand = [] :=
  machine.invariant_on (I := fun s => s.rx.inHand = [])
    (fun _ _ ha hs => step_rx_inHand ha (Or.inl hs)) h hquiet

theorem rx_inHand_of_moved (hquiet : Quiet moves) (hmoved : 0 < moves.countP ReceiverMove.isRx) :
    (machine.state s moves).rx.inHand = [] := by
  obtain ⟨a, ha, hrx⟩ := List.countP_pos_iff.mp hmoved
  obtain ⟨before, after, rfl⟩ := List.append_of_mem ha
  have hnow : ((machine.state s before).step a).1.rx.inHand = [] :=
    step_rx_inHand (hquiet a ha) (Or.inr hrx)
  rw [OutputMachine.state_append, OutputMachine.state_cons]
  exact rx_inHand_run (fun b hb => hquiet.right b (List.mem_cons_of_mem _ hb)) hnow

/-- The moves of the worker that suffice to empty the queue. -/
def toDrain (s : ReceiverState) : ℕ := 10 * s.queue.items.length + s.worker.toPop

theorem workerStep_takes {pkt : RxPacket} {rest : List RxPacket}
    (hw : s.worker = .popUntil ∨ s.worker = .waiting) (hitems : s.queue.items = pkt :: rest) :
    s.workerStep =
      ({ s with queue := { s.queue with items := rest }, worker := .popped pkt }, []) := by
  have htake : s.afterPop (.leaves s.queue.tryPop.1 s.queue.tryPop.2) =
      { s with queue := { s.queue with items := rest }, worker := .popped pkt } := by
    simp [afterPop, PacketQueue.tryPop, hitems]
  rcases hw with hw | hw
  · rcases s.queue.waitOrTake_cases s.shutdown with ⟨hnil, -, -⟩ | he
    · simp [hnil] at hitems
    · simp only [workerStep, hw, PacketQueue.popUntil, he, htake]
  · simp only [workerStep, hw, PacketQueue.popUntilWoken, htake]

/-- Each move of the worker brings it closer to an empty queue and hand, or it is at its end. -/
theorem workerStep_toDrain (hleft : s.queue.items ≠ [] ∨ s.worker.inHand ≠ [])
    (hended : s.workerStep.1.worker ≠ .ended) : s.workerStep.1.toDrain < s.toDrain := by
  have hpop : s.worker = .popUntil ∨ s.worker = .waiting → s.workerStep.1.toDrain < s.toDrain := by
    intro hw
    have hne : s.queue.items ≠ [] := by
      apply hleft.resolve_right
      rcases hw with hw | hw <;> simp [hw, WorkerPosition.inHand]
    obtain ⟨pkt, rest, hitems⟩ := List.exists_cons_of_ne_nil hne
    rw [workerStep_takes hw hitems]
    rcases hw with hw | hw <;> simp only [toDrain, hw, hitems, WorkerPosition.toPop,
      List.length_cons] <;> omega
  cases hw : s.worker with
  | popUntil => exact hpop (Or.inl hw)
  | waiting => exact hpop (Or.inr hw)
  | ended =>
    apply absurd _ hended
    simp only [workerStep, hw]
  | flushAll =>
    apply absurd _ hended
    simp only [workerStep, hw]
  | testTimer =>
    simp only [toDrain, workerStep, hw]
    split_ifs <;> simp [WorkerPosition.toPop]
  | testShutdown =>
    simp only [toDrain, workerStep, hw]
    split_ifs <;> simp [WorkerPosition.toPop]
  | testEmpty =>
    simp only [toDrain, workerStep, hw]
    split_ifs <;> simp [WorkerPosition.toPop]
  | checkGrace =>
    simp only [toDrain, workerStep, hw]
    split_ifs <;> simp [WorkerPosition.toPop]
  | _ => simp [toDrain, workerStep, hw, WorkerPosition.toPop]

/-- With an empty queue and an empty hand the worker takes nothing. -/
theorem workerStep_takesNothing (hqueue : s.queue.items = []) (hworker : s.worker.inHand = []) :
    s.workerStep.1.queue.items = [] ∧ s.workerStep.1.worker.inHand = [] := by
  have hpop : s.worker = .popUntil ∨ s.worker = .waiting →
      s.workerStep.1.queue.items = [] ∧ s.workerStep.1.worker.inHand = [] := by
    intro hw
    rcases s.popUntil_cases hw with he | he | ⟨pkt, rest, hitems, -⟩
    · rw [he]
      exact ⟨hqueue, rfl⟩
    · rw [he]
      exact ⟨hqueue, rfl⟩
    · simp [hitems] at hqueue
  cases hw : s.worker with
  | popUntil => exact hpop (Or.inl hw)
  | waiting => exact hpop (Or.inr hw)
  | popped pkt => simp [hw, WorkerPosition.inHand] at hworker
  | sampled pkt queueNow => simp [hw, WorkerPosition.inHand] at hworker
  | testTimer =>
    simp only [workerStep, hw]
    split_ifs <;> exact ⟨hqueue, rfl⟩
  | testShutdown =>
    simp only [workerStep, hw]
    split_ifs <;> exact ⟨hqueue, rfl⟩
  | testEmpty =>
    simp only [workerStep, hw]
    split_ifs <;> exact ⟨hqueue, rfl⟩
  | checkGrace =>
    simp only [workerStep, hw]
    split_ifs <;> exact ⟨hqueue, rfl⟩
  | _ =>
    simp only [workerStep, hw]
    exact ⟨hqueue, rfl⟩

theorem TakenIn.step (h : TakenIn s) {a : ReceiverMove} (ha : offered a = none) :
    TakenIn (s.step a).1 := by
  obtain ⟨hrx, hqueue, hworker⟩ := h
  have hkeep : (s.step a).1.queue.items = [] ∧ (s.step a).1.worker.inHand = [] := by
    cases a with
    | rx outcome =>
      rcases s.rxStep_cases outcome with ⟨position, he⟩ | ⟨pkt, hpushing, -⟩
      · rw [ReceiverState.step, he]
        exact ⟨hqueue, hworker⟩
      · simp [hpushing, RxPosition.inHand] at hrx
    | worker => exact workerStep_takesNothing hqueue hworker
    | _ => exact ⟨hqueue, hworker⟩
  exact ⟨step_rx_inHand ha (Or.inl hrx), hkeep.1, hkeep.2⟩

def Drains (s : ReceiverState) : Prop := s.worker = .ended ∨ TakenIn s

theorem Drains.step (h : Drains s) {a : ReceiverMove} (ha : offered a = none) :
    Drains (s.step a).1 :=
  h.imp (fun hended => step_workerEnded hended a) (fun htaken => htaken.step ha)

/-- What a quiet step brings about and no quiet step undoes holds at the end of a quiet run. -/
theorem holds_of_event {G : ReceiverState → Prop} (hquiet : Quiet moves)
    (hkept : ∀ s a, G s → offered a = none → G (s.step a).1)
    (h : ∃ before a after, moves = before ++ a :: after ∧
      (offered a ≠ none ∨ G ((machine.state s before).step a).1)) :
    G (machine.state s moves) := by
  obtain ⟨before, a, after, rfl, hevent⟩ := h
  rw [OutputMachine.state_append, OutputMachine.state_cons]
  refine machine.invariant_on (I := G) (fun s b hb hs => hkept s b hs hb)
    (hevent.resolve_left (not_not_intro (hquiet a (by simp)))) (fun b hb => ?_)
  exact hquiet.right b (List.mem_cons_of_mem _ hb)

/-- When the receive thread has nothing in hand, the worker drains the queue. -/
theorem drains_of_moves (hquiet : Quiet moves) (hrx : s.rx.inHand = [])
    (hmoves : s.toDrain < moves.countP ReceiverMove.isWorker) :
    Drains (machine.state s moves) := by
  by_cases hnow : Drains s
  · exact machine.invariant_on (I := Drains) (fun s a ha hs => hs.step ha) hnow hquiet
  · have hstep : ∀ t a, t.rx.inHand = [] ∧ ¬ Drains t →
        (offered a ≠ none ∨ Drains (t.step a).1) ∨
          (((t.step a).1.rx.inHand = [] ∧ ¬ Drains (t.step a).1) ∧
            (t.step a).1.toDrain ≤ t.toDrain ∧
            (a.isWorker = true → (t.step a).1.toDrain < t.toDrain)) := by
      rintro t a ⟨hhand, hfull⟩
      by_cases ha : offered a = none
      · by_cases hdrains : Drains (t.step a).1
        · exact Or.inl (Or.inr hdrains)
        · refine Or.inr ⟨⟨step_rx_inHand ha (Or.inl hhand), hdrains⟩, ?_⟩
          cases a with
          | worker =>
            have hlt := workerStep_toDrain (s := t) ?_ (fun hended => hdrains (Or.inl hended))
            · exact ⟨hlt.le, fun _ => hlt⟩
            · by_contra hnone
              push Not at hnone
              exact hfull (Or.inr ⟨hhand, hnone.1, hnone.2⟩)
          | rx outcome =>
            refine ⟨?_, fun hhelp => by cases hhelp⟩
            rcases t.rxStep_cases outcome with ⟨position, he⟩ | ⟨pkt, hpushing, -⟩
            · rw [ReceiverState.step, he]
              exact le_rfl
            · simp [hpushing, RxPosition.inHand] at hhand
          | _ => exact ⟨le_rfl, fun hhelp => by cases hhelp⟩
      · exact Or.inl (Or.inl ha)
    obtain ⟨before, a, after, hsplit, -, hevent⟩ :=
      machine.exists_event toDrain ReceiverMove.isWorker hstep ⟨hrx, hnow⟩ hmoves
    exact holds_of_event hquiet (fun _ _ h ha => h.step ha) ⟨before, a, after, hsplit, hevent⟩

/-- With nothing on its way to the manager, no frame is opened or changed. -/
theorem TakenIn.live_step (h : TakenIn s) {a : ReceiverMove} {k : UInt32} {e : FrameEntry}
    (he : (s.step a).1.manager.frames.find? k = some e) :
    s.manager.frames.find? k = some e := by
  by_cases ha : a = .worker
  · subst ha
    rw [ReceiverState.step] at he
    rcases s.workerStep_cases with ⟨pkt, queueNow, hw, -⟩ | ⟨now, drops, hw, -⟩ | ⟨-, hs⟩ |
      ⟨-, hs, -⟩
    · have hhand := h.worker
      simp [hw, WorkerPosition.inHand] at hhand
    · rw [find?_of_poll hw] at he
      exact (Option.filter_eq_some_iff.mp he).1
    · rw [hs] at he
      cases he
    · rwa [hs] at he
  · rwa [(step_of_ne_worker ha s).2.1] at he

/-- Nothing is on its way to the manager, and nothing is live in it. -/
structure Emptied (s : ReceiverState) : Prop where
  taken : TakenIn s
  frames : ∀ k, s.manager.frames.find? k = none

theorem Emptied.step (h : Emptied s) {a : ReceiverMove} (ha : offered a = none) :
    Emptied (s.step a).1 := by
  refine ⟨h.taken.step ha, fun k => Option.eq_none_iff_forall_ne_some.mpr (fun e he => ?_)⟩
  have hbefore := h.taken.live_step he
  rw [h.frames k] at hbefore
  cases hbefore

/-- Something is live, and all that is has been idle for more than 30 ms. -/
structure Stale (s : ReceiverState) : Prop where
  reached : Reached s
  taken : TakenIn s
  live : ∃ k e, s.manager.frames.find? k = some e
  idle : ∀ k e, s.manager.frames.find? k = some e → frameIdleTimeout < s.clock - e.lastUpdate

/-- The next poll of the timers reports all of it. -/
theorem awaitsPoll_stale :
    AwaitsPoll Stale (fun s a => offered a ≠ none ∨ Emptied (s.step a).1) where
  started := fun _ h => by
    obtain ⟨k, e, he⟩ := h.live
    exact h.reached.lastTimer_le he
  polled := by
    intro s now drops h hw
    refine Or.inr ⟨h.taken.step rfl, fun k => ?_⟩
    rw [ReceiverState.step, find?_of_poll hw, Option.filter_eq_none_iff]
    intro e he
    have hidle := h.idle k e he
    cases hfull : e.fullyReceived <;>
      simp [FrameEntry.timerVerdict, FrameEntry.timedOut, hidle, hfull]
  ended := by
    intro s h hw
    obtain ⟨⟨clock, moves, rfl⟩, -, ⟨k, e, he⟩, -⟩ := h
    rw [(framesSettled_run clock moves).ended hw] at he
    cases he
  kept := by
    intro s a h
    by_cases ha : offered a = none
    · have htaken := h.taken.step ha
      by_cases hempty : ∀ k, (s.step a).1.manager.frames.find? k = none
      · exact Or.inl (Or.inr ⟨htaken, hempty⟩)
      · push Not at hempty
        obtain ⟨k, hk⟩ := hempty
        obtain ⟨e, he⟩ := Option.ne_none_iff_exists'.mp hk
        refine Or.inr ⟨h.reached.step a, htaken, ⟨k, e, he⟩, fun k e he => ?_⟩
        have hidle := h.idle k e (h.taken.live_step he)
        have hclock := s.step_clock a
        omega
    · exact Or.inl (Or.inl ha)

theorem TakenIn.aged (h : TakenIn s) (hreached : Reached s) (hquiet : Quiet moves)
    (hage : frameIdleTimeout < (moves.map ReceiverMove.elapsed).sum) :
    Emptied (machine.state s moves) ∨ Stale (machine.state s moves) := by
  have hkept : TakenIn (machine.state s moves) ∧ ∀ k e,
      (machine.state s moves).manager.frames.find? k = some e →
        s.manager.frames.find? k = some e :=
    machine.invariant_on
      (I := fun t => TakenIn t ∧ ∀ k e, t.manager.frames.find? k = some e →
        s.manager.frames.find? k = some e)
      (fun t a ha ht => ⟨ht.1.step ha, fun k e he => ht.2 k e (ht.1.live_step he)⟩)
      ⟨h, fun _ _ he => he⟩ hquiet
  by_cases hempty : ∀ k, (machine.state s moves).manager.frames.find? k = none
  · exact Or.inl ⟨hkept.1, hempty⟩
  · push Not at hempty
    obtain ⟨k, hk⟩ := hempty
    obtain ⟨e, he⟩ := Option.ne_none_iff_exists'.mp hk
    refine Or.inr ⟨hreached.run moves, hkept.1, ⟨k, e, he⟩, fun k e he => ?_⟩
    have hlast := (hreached.times_le (hkept.2 k e he)).2
    rw [state_clock]
    omega

theorem TakenIn.emptied (h : TakenIn s) (hreached : Reached s)
    {aging waiting polling : List ReceiverMove} (hquiet : Quiet (aging ++ (waiting ++ polling)))
    (hage : frameIdleTimeout < (aging.map ReceiverMove.elapsed).sum)
    (hwait : 5 * 1000000 ≤ (waiting.map ReceiverMove.elapsed).sum)
    (hmoves : 11 < polling.countP ReceiverMove.isWorker) :
    Emptied (machine.state s (aging ++ (waiting ++ polling))) := by
  rw [OutputMachine.state_append]
  rcases h.aged hreached hquiet.left hage with hemptied | hstale
  · exact machine.invariant_on (I := Emptied) (fun s a ha hs => hs.step ha) hemptied hquiet.right
  · exact holds_of_event hquiet.right (fun _ _ hs ha => hs.step ha)
      (awaitsPoll_stale.event hstale hwait hmoves)

/-- All that was accepted has been handed over, and all that was opened has been reported. -/
structure AtRest (clock : ℤ) (moves : List ReceiverMove) : Prop where
  taken : TakenIn (machine.state (init clock) moves)
  handed : (managerCalls clock moves).filterMap (fun c => c.call.pushed) =
    acceptedPackets (machine.outputs (init clock) moves)
  frames : (machine.state (init clock) moves).manager.frames = OrderedMap.empty
  reported : openedEntries Receiver.maxFrameSize Receiver.payloadStride
    (managerCalls clock moves) = (reports (machine.outputs (init clock) moves)).length

theorem atRest_of_emptied {clock : ℤ} (h : Emptied (machine.state (init clock) moves))
    (hrunning : (machine.state (init clock) moves).worker ≠ .ended) : AtRest clock moves := by
  have hfifo := (usedInOrder_run clock moves).1.fifo
  have hsettled := framesSettled_run clock moves
  have hframes := OrderedMap.eq_empty_of_find? h.frames
  refine ⟨h.taken, ?_, hframes, ?_⟩
  · rwa [h.taken.worker, h.taken.queue, List.append_nil, List.append_nil] at hfifo
  · rw [hsettled.opened, hsettled.running hrunning, hframes]
    simp [OrderedMap.size, OrderedMap.empty]

/-- Whatever the receiver has been through: when no more datagrams come, a move of the receive
thread, enough moves of the worker to empty a full queue, 30 ms, and then 5 ms and a dozen moves of
the worker bring it to rest, unless the worker has come to its end. -/
theorem comes_to_rest (clock : ℤ) (moves : List ReceiverMove)
    {pushing draining aging waiting polling : List ReceiverMove}
    (hquiet : Quiet (pushing ++ (draining ++ (aging ++ (waiting ++ polling)))))
    (hpush : 0 < pushing.countP ReceiverMove.isRx)
    (hdrain : 10 * Receiver.maxQueueSize + 9 < draining.countP ReceiverMove.isWorker)
    (hage : frameIdleTimeout < (aging.map ReceiverMove.elapsed).sum)
    (hwait : 5 * 1000000 ≤ (waiting.map ReceiverMove.elapsed).sum)
    (hmoves : 11 < polling.countP ReceiverMove.isWorker) :
    let all := moves ++ (pushing ++ (draining ++ (aging ++ (waiting ++ polling))))
    (machine.state (init clock) all).worker = .ended ∨ AtRest clock all := by
  intro all
  have hall : machine.state (init clock) all = machine.state (machine.state (machine.state
      (machine.state (init clock) moves) pushing) draining) (aging ++ (waiting ++ polling)) := by
    simp only [all, OutputMachine.state_append]
  set pushed := machine.state (machine.state (init clock) moves) pushing with hpushed
  have hbound : pushed.toDrain ≤ 10 * Receiver.maxQueueSize + 9 := by
    have hqueue := (queue_bounded clock (moves ++ pushing)).1
    rw [OutputMachine.state_append, ← hpushed] at hqueue
    have hworker : pushed.worker.toPop ≤ 9 := by
      cases pushed.worker <;> simp [WorkerPosition.toPop]
    rw [toDrain]
    omega
  have hreached : Reached (machine.state pushed draining) :=
    (Reached.run ⟨clock, moves, rfl⟩ pushing).run draining
  by_cases hrunning : (machine.state (init clock) all).worker = .ended
  · exact Or.inl hrunning
  · refine Or.inr (atRest_of_emptied ?_ hrunning)
    rw [hall] at hrunning ⊢
    rcases drains_of_moves hquiet.right.left (rx_inHand_of_moved hquiet.left hpush)
      (hbound.trans_lt hdrain) with hended | htaken
    · exact absurd (machine.state_invariant (I := fun s => s.worker = .ended) hended
        (fun s a h => step_workerEnded h a) _) hrunning
    · exact htaken.emptied hreached hquiet.right.right hage hwait hmoves

/-- One packet of a frame is in the queue, and the other in the hand of the receive thread. -/
def backlog : List ReceiverMove :=
  receiveMoves (UdpSender.datagram 1 twoPacketFrame 1) ++
    [.rx .timeout, .rx (.received (UdpSender.datagram 1 twoPacketFrame 0))]

theorem comes_to_rest_backlog :
    AtRest 0 (backlog ++ ([.rx .timeout] ++ (List.replicate (10 * Receiver.maxQueueSize + 10)
      .worker ++ ([.advance 30000001] ++ ([.advance 5000000] ++ List.replicate 12 .worker))))) := by
  refine (comes_to_rest 0 backlog ?_ (by decide) ?_ (by decide) (by decide)
    (by decide)).resolve_left (not_ended_of_unsignalled 0 ?_)
  · intro a ha
    simp only [List.mem_append, List.mem_singleton, List.mem_replicate] at ha
    rcases ha with rfl | ⟨-, rfl⟩ | rfl | rfl | ⟨-, rfl⟩ <;> rfl
  · rw [List.countP_replicate, if_pos (by rfl)]
    omega
  · simp [backlog, receiveMoves, List.mem_replicate]

end ReceiverState

end HvFrame
