import HvFrame.QueuePressure

/-!
# The receiver as a sequential user of the manager

Whatever the interleaving, the manager sees one list of calls: the accepted packets in the
order in which they were pushed, timer polls at a bounded rate, and one flush at the end.
What the receiver emits is what the manager emits on that list.
-/

namespace HvFrame

section Ascending

variable {α : Type*} [Preorder α] {l : List α} {x y : α}

theorem ascending_raise (h : (l ++ [x]).Pairwise (· ≤ ·)) (hxy : x ≤ y) :
    (l ++ [y]).Pairwise (· ≤ ·) := by
  rw [List.pairwise_append] at h ⊢
  refine ⟨h.1, List.pairwise_singleton _ _, fun a ha b hb => ?_⟩
  rw [List.mem_singleton.mp hb]
  exact (h.2.2 a ha x List.mem_cons_self).trans hxy

theorem ascending_repeat (h : (l ++ [x]).Pairwise (· ≤ ·)) :
    (l ++ [x] ++ [x]).Pairwise (· ≤ ·) := by
  rw [List.pairwise_append]
  refine ⟨h, List.pairwise_singleton _ _, fun a ha b hb => ?_⟩
  rw [List.mem_singleton.mp hb]
  rcases List.mem_append.mp ha with ha | ha
  · exact (List.pairwise_append.mp h).2.2 a ha x List.mem_cons_self
  · exact (List.mem_singleton.mp ha).le

end Ascending

def ManagerCall.pushed : ManagerCall → Option RxPacket
  | .pushPacket pkt _ => some pkt
  | _ => none

def ManagerCall.drops : ManagerCall → Option ℕ
  | .pushPacket _ queueDropCount => some queueDropCount
  | .pollTimers queueDropNow => some queueDropNow
  | .forceEmitAll queueDropNow => some queueDropNow
  | _ => none

def ManagerCall.isPoll : ManagerCall → Bool
  | .pollTimers _ => true
  | _ => false

/-- The two calls that the loop of `frame_worker_thread` makes. -/
def ManagerCall.inLoop : ManagerCall → Bool
  | .pushPacket .. => true
  | .pollTimers _ => true
  | _ => false

namespace ReceiverEvent

def managerOutput : ReceiverEvent → Option ManagerOutput
  | .managed out => some out
  | _ => none

def pushedPacket : ReceiverEvent → Option RxPacket
  | .accepted pkt => some pkt
  | .rejected pkt => some pkt
  | _ => none

end ReceiverEvent

namespace WorkerPosition

def dropSample : WorkerPosition → Option ℕ
  | .sampled _ queueNow => some queueNow
  | .pollTimers _ queueDropNow => some queueDropNow
  | _ => none

def timerSample : WorkerPosition → Option ℤ
  | .timerDue now => some now
  | .pollTimers now _ => some now
  | _ => none

end WorkerPosition

/-- The packet the receive thread has accepted but not pushed. -/
def RxPosition.inHand : RxPosition → List RxPacket
  | .pushing pkt => [pkt]
  | _ => []

namespace ReceiverState

/-- The manager call that the next step makes, if it makes one. -/
def managerCall (s : ReceiverState) : ReceiverMove → List TimedCall
  | .worker =>
      match s.worker with
      | .sampled pkt queueNow => [⟨s.clock, .pushPacket pkt queueNow⟩]
      | .pollTimers _ queueDropNow => [⟨s.clock, .pollTimers queueDropNow⟩]
      | .flushAll => [⟨s.clock, .flushAll⟩]
      | _ => []
  | _ => []

def receipt (s : ReceiverState) : ReceiverMove → List (List UInt8)
  | .rx (.received datagram) =>
      match s.rx with
      | .polling => [datagram]
      | _ => []
  | _ => []

def managerCalls (clock : ℤ) (moves : List ReceiverMove) : List TimedCall :=
  machine.callsTo managerCall (init clock) moves

def receipts (clock : ℤ) (moves : List ReceiverMove) : List (List UInt8) :=
  machine.callsTo receipt (init clock) moves

/-- How the worker has used the manager so far. -/
structure UsedInOrder (start : ℤ) (calls : List TimedCall) (es : List ReceiverEvent)
    (s : ReceiverState) : Prop where
  fifo : calls.filterMap (fun c => c.call.pushed) ++ s.worker.inHand ++ s.queue.items =
    acceptedPackets es
  clocks : (start :: calls.map TimedCall.now ++ [s.clock]).Pairwise (· ≤ ·)
  drops : (calls.filterMap (fun c => c.call.drops) ++ s.worker.dropSample.toList ++
    [s.queue.dropped]).Pairwise (· ≤ ·)
  rate : start + calls.countP (fun c => c.call.isPoll) * (5 * 1000000) ≤ s.clock
  loop : s.worker ≠ .ended → ∀ c ∈ calls, c.call.inLoop = true
  final : s.worker = .ended → ∃ inLoop t, calls = inLoop ++ [⟨t, .flushAll⟩] ∧
    ∀ c ∈ inLoop, c.call.inLoop = true

/-- What a worker step does when it makes no call. -/
structure Between (s s' : ReceiverState) (es : List ReceiverEvent) : Prop where
  packets : s'.worker.inHand ++ s'.queue.items = s.worker.inHand ++ s.queue.items
  dropped : s'.queue.dropped = s.queue.dropped
  clock : s'.clock = s.clock
  unsampled : s.worker.dropSample = none
  sampled : s'.worker.dropSample = none ∨ s'.worker.dropSample = some s.queue.dropped
  nothing : acceptedPackets es = []
  ended : s'.worker = .ended ↔ s.worker = .ended

variable {start : ℤ} {calls : List TimedCall} {es es' : List ReceiverEvent} {s s' : ReceiverState}

theorem between_popUntil (h : s.worker = .popUntil ∨ s.worker = .waiting) :
    Between s s.workerStep.1 s.workerStep.2 := by
  have hhand : s.worker.inHand = [] ∧ s.worker.dropSample = none ∧ s.worker ≠ .ended := by
    rcases h with hw | hw <;> simp [hw, WorkerPosition.inHand, WorkerPosition.dropSample]
  obtain ⟨hempty, hunsampled, hended⟩ := hhand
  rcases s.popUntil_cases h with he | he | ⟨pkt, rest, hitems, he⟩ <;> rw [he]
  · exact ⟨by rw [hempty]; rfl, rfl, rfl, hunsampled, Or.inl rfl, rfl,
      iff_of_false (by simp) hended⟩
  · exact ⟨by rw [hempty]; rfl, rfl, rfl, hunsampled, Or.inl rfl, rfl,
      iff_of_false (by simp) hended⟩
  · exact ⟨by rw [hempty, hitems]; rfl, rfl, rfl, hunsampled, Or.inl rfl, rfl,
      iff_of_false (by simp) hended⟩

theorem between_workerStep (h : s.managerCall .worker = []) :
    Between s s.workerStep.1 s.workerStep.2 := by
  cases hw : s.worker with
  | sampled pkt queueNow => simp [managerCall, hw] at h
  | pollTimers now queueDropNow => simp [managerCall, hw] at h
  | flushAll => simp [managerCall, hw] at h
  | popUntil => exact between_popUntil (Or.inl hw)
  | waiting => exact between_popUntil (Or.inr hw)
  | testEmpty =>
    simp only [workerStep, hw]
    split_ifs <;> constructor <;> simp [hw, WorkerPosition.inHand, WorkerPosition.dropSample,
      acceptedPackets, ReceiverEvent.acceptedPacket]
  | _ =>
    simp only [workerStep, hw]
    try split_ifs
    all_goals constructor <;> simp [hw, WorkerPosition.inHand, WorkerPosition.dropSample,
      acceptedPackets]

theorem step_outside {a : ReceiverMove} (h : a ≠ .worker) (s : ReceiverState) :
    s.managerCall a = [] ∧ (s.step a).1.worker = s.worker ∧
      (s.step a).1.lastTimer = s.lastTimer ∧
      (s.step a).1.queue.items = s.queue.items ++ acceptedPackets (s.step a).2 ∧
      s.queue.dropped ≤ (s.step a).1.queue.dropped ∧ s.clock ≤ (s.step a).1.clock := by
  cases a with
  | signal => exact ⟨rfl, rfl, rfl, (List.append_nil _).symm, le_rfl, le_rfl⟩
  | advance elapsed =>
    refine ⟨rfl, rfl, rfl, (List.append_nil _).symm, le_rfl, ?_⟩
    simp only [step]
    omega
  | rx outcome =>
    rcases s.rxStep_cases outcome with ⟨position, he⟩ | ⟨pkt, -, he⟩
    · rw [step, he]
      exact ⟨rfl, rfl, rfl, (List.append_nil _).symm, le_rfl, le_rfl⟩
    · rw [step, he]
      rcases s.queue.push_cases pkt with ⟨-, hpush⟩ | ⟨-, hpush⟩ <;> rw [hpush]
      · exact ⟨rfl, rfl, rfl, rfl, le_rfl, le_rfl⟩
      · exact ⟨rfl, rfl, rfl, (List.append_nil _).symm, Nat.le_succ _, le_rfl⟩
  | worker => exact absurd rfl h

/-- Each poll of the timers has used up 5 ms of the clock. -/
structure PollsPaced (start : ℤ) (calls : List TimedCall) (s : ReceiverState) : Prop where
  began : start ≤ s.clock
  unstarted : s.worker = .start → calls = []
  paced : s.worker ≠ .start →
    start + calls.countP (fun c => c.call.isPoll) * (5 * 1000000) ≤ s.lastTimer ∧
      s.lastTimer ≤ s.clock
  sampled : ∀ now, s.worker.timerSample = some now →
    s.lastTimer + 5 * 1000000 ≤ now ∧ now ≤ s.clock

theorem PollsPaced.moveOn (h : PollsPaced start calls s) {calls' : List TimedCall}
    (hpolls : calls'.countP (fun c => c.call.isPoll) = calls.countP (fun c => c.call.isPoll))
    (hbegun : s.worker ≠ .start) (hbegun' : s'.worker ≠ .start) (hclock : s'.clock = s.clock)
    (hlast : s'.lastTimer = s.lastTimer)
    (hsample : ∀ now, s'.worker.timerSample = some now →
      s.lastTimer + 5 * 1000000 ≤ now ∧ now ≤ s.clock) : PollsPaced start calls' s' := by
  refine ⟨hclock ▸ h.began, fun hw => absurd hw hbegun', fun _ => ?_, ?_⟩
  · rw [hpolls, hclock, hlast]
    exact h.paced hbegun
  · rw [hclock, hlast]
    exact hsample

theorem PollsPaced.unsampled (h : PollsPaced start calls s) {calls' : List TimedCall}
    (hpolls : calls'.countP (fun c => c.call.isPoll) = calls.countP (fun c => c.call.isPoll))
    (hbegun : s.worker ≠ .start) (hbegun' : s'.worker ≠ .start) (hclock : s'.clock = s.clock)
    (hlast : s'.lastTimer = s.lastTimer) (hsample : s'.worker.timerSample = none) :
    PollsPaced start calls' s' :=
  h.moveOn hpolls hbegun hbegun' hclock hlast
    (fun now hnow => absurd (hsample.symm.trans hnow) (Option.some_ne_none now).symm)

theorem pollsPaced_popUntil (h : PollsPaced start calls s)
    (hw : s.worker = .popUntil ∨ s.worker = .waiting) :
    PollsPaced start (calls ++ []) s.workerStep.1 := by
  have hbegun : s.worker ≠ .start := by
    rcases hw with hw | hw <;> simp [hw]
  rw [List.append_nil]
  rcases s.popUntil_cases hw with he | he | ⟨pkt, rest, -, he⟩ <;> rw [he]
  · exact h.unsampled rfl hbegun (by simp) rfl rfl rfl
  · exact h.unsampled rfl hbegun (by simp) rfl rfl rfl
  · exact h.unsampled rfl hbegun (by simp) rfl rfl rfl

theorem pollsPaced_workerStep (h : PollsPaced start calls s) :
    PollsPaced start (calls ++ s.managerCall .worker) s.workerStep.1 := by
  cases hw : s.worker with
  | start =>
    obtain ⟨hbegan, hunstarted, -, -⟩ := h
    simp only [managerCall, workerStep, hw, List.append_nil]
    refine ⟨hbegan, by simp, fun _ => ⟨?_, le_rfl⟩, by simp [WorkerPosition.timerSample]⟩
    obtain rfl := hunstarted hw
    simpa using hbegan
  | popUntil =>
    simpa only [managerCall, hw] using pollsPaced_popUntil h (Or.inl hw)
  | waiting =>
    simpa only [managerCall, hw] using pollsPaced_popUntil h (Or.inr hw)
  | testTimer =>
    simp only [managerCall, workerStep, hw]
    refine h.moveOn (by rw [List.append_nil]) (by simp [hw]) ?_ rfl rfl ?_
    · split_ifs <;> simp
    · intro now hnow
      split_ifs at hnow with hdue
      · obtain rfl := Option.some.inj hnow
        omega
      · cases hnow
  | timerDue now =>
    simp only [managerCall, workerStep, hw]
    refine h.moveOn (by rw [List.append_nil]) (by simp [hw]) (by simp) rfl rfl
      (fun now' hnow' => ?_)
    obtain rfl := Option.some.inj hnow'
    exact h.sampled now (by rw [hw]; rfl)
  | pollTimers now queueDropNow =>
    obtain ⟨hbegan, -, hpaced, hsampled⟩ := h
    have hpolled := (hpaced (by simp [hw])).1
    have hdue := hsampled now (by rw [hw]; rfl)
    have hcount : (calls ++ [⟨s.clock, .pollTimers queueDropNow⟩] : List TimedCall).countP
        (fun c => c.call.isPoll) = calls.countP (fun c => c.call.isPoll) + 1 := by
      rw [List.countP_append]
      rfl
    simp only [managerCall, workerStep, hw]
    refine ⟨hbegan, by simp, fun _ => ⟨?_, hdue.2⟩, by simp [WorkerPosition.timerSample]⟩
    rw [hcount]
    dsimp only
    omega
  | sampled pkt queueNow =>
    simp only [managerCall, workerStep, hw]
    refine h.unsampled ?_ (by simp [hw]) (by simp) rfl rfl rfl
    rw [List.countP_append]
    rfl
  | flushAll =>
    simp only [managerCall, workerStep, hw]
    refine h.unsampled ?_ (by simp [hw]) (by simp) rfl rfl rfl
    rw [List.countP_append]
    rfl
  | ended =>
    simp only [managerCall, workerStep, hw, List.append_nil]
    exact h
  | popped pkt =>
    simp only [managerCall, workerStep, hw]
    exact h.unsampled (by rw [List.append_nil]) (by simp [hw]) (by simp) rfl rfl rfl
  | startGrace =>
    simp only [managerCall, workerStep, hw]
    exact h.unsampled (by rw [List.append_nil]) (by simp [hw]) (by simp) rfl rfl rfl
  | _ =>
    simp only [managerCall, workerStep, hw]
    refine h.unsampled (by rw [List.append_nil]) (by simp [hw]) ?_ rfl rfl ?_ <;> split_ifs <;>
      simp [WorkerPosition.timerSample]

theorem PollsPaced.step (h : PollsPaced start calls s) (a : ReceiverMove) :
    PollsPaced start (calls ++ s.managerCall a) (s.step a).1 := by
  by_cases ha : a = .worker
  · subst ha
    exact pollsPaced_workerStep h
  · obtain ⟨hcall, hworker, hlast, -, -, hclock⟩ := step_outside ha s
    obtain ⟨hbegan, hunstarted, hpaced, hsampled⟩ := h
    rw [hcall, List.append_nil]
    refine ⟨hbegan.trans hclock, ?_, ?_, ?_⟩ <;> rw [hworker]
    · exact hunstarted
    · intro hw
      rw [hlast]
      exact ⟨(hpaced hw).1, (hpaced hw).2.trans hclock⟩
    · intro now hnow
      rw [hlast]
      exact ⟨(hsampled now hnow).1, (hsampled now hnow).2.trans hclock⟩

theorem PollsPaced.rate (h : PollsPaced start calls s) :
    start + calls.countP (fun c => c.call.isPoll) * (5 * 1000000) ≤ s.clock := by
  by_cases hw : s.worker = .start
  · obtain rfl := h.unstarted hw
    simpa using h.began
  · exact (h.paced hw).1.trans (h.paced hw).2

theorem acceptedPackets_append (es es' : List ReceiverEvent) :
    acceptedPackets (es ++ es') = acceptedPackets es ++ acceptedPackets es' :=
  List.filterMap_append

theorem UsedInOrder.outside (h : UsedInOrder start calls es s) (hrate : PollsPaced start calls s')
    (hworker : s'.worker = s.worker)
    (hitems : s'.queue.items = s.queue.items ++ acceptedPackets es')
    (hdropped : s.queue.dropped ≤ s'.queue.dropped) (hclock : s.clock ≤ s'.clock) :
    UsedInOrder start calls (es ++ es') s' where
  fifo := by
    rw [acceptedPackets_append, ← h.fifo, hworker, hitems, ← List.append_assoc]
  clocks := ascending_raise h.clocks hclock
  drops := by
    rw [hworker]
    exact ascending_raise h.drops hdropped
  rate := hrate.rate
  loop := fun hw => h.loop (hworker ▸ hw)
  final := fun hw => h.final (hworker ▸ hw)

theorem UsedInOrder.between (h : UsedInOrder start calls es s) (hrate : PollsPaced start calls s')
    (hbetween : Between s s' es') : UsedInOrder start calls (es ++ es') s' where
  fifo := by
    rw [acceptedPackets_append, hbetween.nothing, List.append_nil, ← h.fifo, List.append_assoc,
      hbetween.packets, List.append_assoc]
  clocks := by
    rw [hbetween.clock]
    exact h.clocks
  drops := by
    have hdrops := h.drops
    rw [hbetween.unsampled, Option.toList_none, List.append_nil] at hdrops
    rw [hbetween.dropped]
    rcases hbetween.sampled with hs | hs <;> rw [hs]
    · simpa using hdrops
    · exact ascending_repeat hdrops
  rate := hrate.rate
  loop := fun hw => h.loop (fun hended => hw (hbetween.ended.mpr hended))
  final := fun hw => h.final (hbetween.ended.mp hw)

/-- The worker makes one call: it spends the packet and the sample it holds. -/
theorem UsedInOrder.call (h : UsedInOrder start calls es s) {c : ManagerCall}
    (hrate : PollsPaced start (calls ++ [⟨s.clock, c⟩]) s')
    (hhand : s.worker.inHand = c.pushed.toList) (hhand' : s'.worker.inHand = [])
    (hsample : s.worker.dropSample = c.drops) (hsample' : s'.worker.dropSample = none)
    (hqueue : s'.queue = s.queue) (hclock : s'.clock = s.clock) (hes : acceptedPackets es' = [])
    (hended : s.worker ≠ .ended)
    (hnext : (c.inLoop = true ∧ s'.worker ≠ .ended) ∨ (c = .flushAll ∧ s'.worker = .ended)) :
    UsedInOrder start (calls ++ [⟨s.clock, c⟩]) (es ++ es') s' where
  fifo := by
    have hpushed : ([⟨s.clock, c⟩] : List TimedCall).filterMap (fun c => c.call.pushed) =
        c.pushed.toList := by
      cases hc : c.pushed <;> simp [hc]
    rw [acceptedPackets_append, hes, List.append_nil, ← h.fifo, List.filterMap_append, hpushed,
      hhand, hhand', hqueue, List.append_nil]
  clocks := by
    have hclocks := ascending_repeat h.clocks
    rw [hclock]
    simpa using hclocks
  drops := by
    have hdrops : ([⟨s.clock, c⟩] : List TimedCall).filterMap (fun c => c.call.drops) =
        c.drops.toList := by
      cases hc : c.drops <;> simp [hc]
    rw [List.filterMap_append, hdrops, hsample', hqueue, ← hsample, Option.toList_none,
      List.append_nil]
    exact h.drops
  rate := hrate.rate
  loop := by
    intro hw c' hc'
    rcases List.mem_append.mp hc' with hc' | hc'
    · exact h.loop hended c' hc'
    · rw [List.mem_singleton.mp hc']
      rcases hnext with ⟨hin, -⟩ | ⟨-, hlast⟩
      · exact hin
      · exact absurd hlast hw
  final := by
    intro hw
    rcases hnext with ⟨-, hlast⟩ | ⟨rfl, -⟩
    · exact absurd hw hlast
    · exact ⟨calls, s.clock, rfl, h.loop hended⟩

theorem acceptedPackets_managed (outs : List ManagerOutput) :
    acceptedPackets (outs.map ReceiverEvent.managed) = [] :=
  (managed_neutral [] outs).1

/-- One step of any party keeps the order of use. -/
theorem UsedInOrder.step (h : UsedInOrder start calls es s) (hrate : PollsPaced start calls s)
    (a : ReceiverMove) :
    UsedInOrder start (calls ++ s.managerCall a) (es ++ (s.step a).2) (s.step a).1 := by
  have hrate' := hrate.step a
  by_cases ha : a = .worker
  · subst ha
    by_cases hquiet : s.managerCall .worker = []
    · rw [hquiet, List.append_nil] at hrate' ⊢
      exact h.between hrate' (between_workerStep hquiet)
    · cases hw : s.worker with
      | sampled pkt queueNow =>
        simp only [ReceiverState.step, workerStep, managerCall, hw] at hrate' ⊢
        exact h.call hrate' (by rw [hw]; rfl) rfl (by rw [hw]; rfl) rfl rfl rfl rfl
          (by simp [hw]) (Or.inl ⟨rfl, by simp⟩)
      | pollTimers now drops =>
        simp only [ReceiverState.step, workerStep, managerCall, hw] at hrate' ⊢
        exact h.call hrate' (by rw [hw]; rfl) rfl (by rw [hw]; rfl) rfl rfl rfl
          (acceptedPackets_managed _) (by simp [hw]) (Or.inl ⟨rfl, by simp⟩)
      | flushAll =>
        simp only [ReceiverState.step, workerStep, managerCall, hw] at hrate' ⊢
        exact h.call hrate' (by rw [hw]; rfl) rfl (by rw [hw]; rfl) rfl rfl rfl
          (acceptedPackets_managed _) (by simp [hw]) (Or.inr ⟨rfl, rfl⟩)
      | _ => exact absurd (by simp only [managerCall, hw]) hquiet
  · obtain ⟨hcall, hworker, -, hitems, hdropped, hclock⟩ := step_outside ha s
    rw [hcall, List.append_nil] at hrate' ⊢
    exact h.outside hrate' hworker hitems hdropped hclock

theorem usedInOrder_run (clock : ℤ) (moves : List ReceiverMove) :
    UsedInOrder clock (managerCalls clock moves) (machine.outputs (init clock) moves)
        (machine.state (init clock) moves) ∧
      PollsPaced clock (managerCalls clock moves) (machine.state (init clock) moves) := by
  have hinit : PollsPaced clock [] (init clock) :=
    ⟨le_rfl, fun _ => rfl, fun hw => absurd rfl hw, by simp [init, WorkerPosition.timerSample]⟩
  have hused : UsedInOrder clock [] [] (init clock) :=
    ⟨rfl, by simp [init], by simp [init, WorkerPosition.dropSample], hinit.rate, by simp,
      by simp [init]⟩
  exact machine.callsTo_invariant managerCall
    (I := fun calls es s => UsedInOrder clock calls es s ∧ PollsPaced clock calls s)
    ⟨hused, hinit⟩ (fun _ _ _ a h => ⟨h.1.step h.2 a, h.2.step a⟩) moves

theorem filterMap_managed (outs : List ManagerOutput) :
    (outs.map ReceiverEvent.managed).filterMap ReceiverEvent.managerOutput = outs := by
  rw [List.filterMap_map]
  exact List.filterMap_some

theorem filterMap_managerOutput_eq_nil (h : ∀ out, .managed out ∉ es) :
    es.filterMap ReceiverEvent.managerOutput = [] := by
  refine List.filterMap_eq_nil_iff.mpr (fun e he => ?_)
  cases e with
  | managed out => exact absurd he (h out)
  | _ => rfl

theorem step_manager (s : ReceiverState) (a : ReceiverMove) :
    (s.step a).1.manager = FrameReassemblerManager.machine.state s.manager (s.managerCall a) ∧
      (s.step a).2.filterMap ReceiverEvent.managerOutput =
        FrameReassemblerManager.machine.outputs s.manager (s.managerCall a) := by
  by_cases ha : a = .worker
  · subst ha
    cases hw : s.worker with
    | sampled pkt queueNow =>
      simp only [step, workerStep, managerCall, hw]
      exact ⟨rfl, rfl⟩
    | pollTimers now drops =>
      simp only [step, workerStep, managerCall, hw]
      exact ⟨rfl, (filterMap_managed _).trans (List.append_nil _).symm⟩
    | flushAll =>
      simp only [step, workerStep, managerCall, hw]
      exact ⟨rfl, (filterMap_managed _).trans (List.append_nil _).symm⟩
    | popUntil =>
      obtain ⟨hout, hmanager, -⟩ := s.popUntil_frame (Or.inl hw)
      simp only [step, managerCall, hw, hout, hmanager]
      exact ⟨rfl, rfl⟩
    | waiting =>
      obtain ⟨hout, hmanager, -⟩ := s.popUntil_frame (Or.inr hw)
      simp only [step, managerCall, hw, hout, hmanager]
      exact ⟨rfl, rfl⟩
    | _ =>
      simp only [step, workerStep, managerCall, hw]
      exact ⟨rfl, rfl⟩
  · obtain ⟨-, hmanager, hnone⟩ := step_of_ne_worker ha s
    rw [(step_outside ha s).1, filterMap_managerOutput_eq_nil hnone, hmanager]
    exact ⟨rfl, rfl⟩

/-- The manager of a run is the manager after the calls of the run. -/
theorem manager_run (clock : ℤ) (moves : List ReceiverMove) :
    (machine.state (init clock) moves).manager = FrameReassemblerManager.machine.state
        (.new Receiver.maxFrameSize Receiver.payloadStride) (managerCalls clock moves) ∧
      (machine.outputs (init clock) moves).filterMap ReceiverEvent.managerOutput =
        FrameReassemblerManager.machine.outputs
          (.new Receiver.maxFrameSize Receiver.payloadStride) (managerCalls clock moves) :=
  machine.component_run managerCall FrameReassemblerManager.machine ReceiverState.manager
    ReceiverEvent.managerOutput step_manager (init clock) moves

def receivedPacket (datagram : List UInt8) : Option RxPacket :=
  rxDatagram (datagram.take Receiver.bufSize)

/-- Every datagram that passes the checks has been pushed or is about to be. -/
def PushesReceived (datagrams : List (List UInt8)) (es : List ReceiverEvent)
    (s : ReceiverState) : Prop :=
  datagrams.filterMap receivedPacket = es.filterMap ReceiverEvent.pushedPacket ++ s.rx.inHand

theorem workerStep_rx (s : ReceiverState) :
    s.workerStep.1.rx = s.rx ∧ s.workerStep.2.filterMap ReceiverEvent.pushedPacket = [] := by
  have hmanaged : ∀ outs : List ManagerOutput,
      (outs.map ReceiverEvent.managed).filterMap ReceiverEvent.pushedPacket = [] := by
    intro outs
    rw [List.filterMap_map]
    exact List.filterMap_none _
  cases hw : s.worker with
  | popUntil =>
    rcases s.popUntil_cases (Or.inl hw) with he | he | ⟨pkt, rest, -, he⟩ <;> rw [he] <;>
      exact ⟨rfl, rfl⟩
  | waiting =>
    rcases s.popUntil_cases (Or.inr hw) with he | he | ⟨pkt, rest, -, he⟩ <;> rw [he] <;>
      exact ⟨rfl, rfl⟩
  | pollTimers now drops =>
    simp only [workerStep, hw]
    exact ⟨trivial, hmanaged _⟩
  | flushAll =>
    simp only [workerStep, hw]
    exact ⟨trivial, hmanaged _⟩
  | _ =>
    simp only [workerStep, hw]
    exact ⟨trivial, rfl⟩

theorem PushesReceived.quiet {datagrams : List (List UInt8)} (h : PushesReceived datagrams es s)
    (hrx : s'.rx.inHand = s.rx.inHand) (hes : es'.filterMap ReceiverEvent.pushedPacket = []) :
    PushesReceived (datagrams ++ []) (es ++ es') s' := by
  rw [PushesReceived, List.append_nil, List.filterMap_append, hes, List.append_nil, hrx]
  exact h

/-- The packet of a datagram is in hand until it is pushed. -/
theorem PushesReceived.rxStep {datagrams : List (List UInt8)} (h : PushesReceived datagrams es s)
    (outcome : PollOutcome) :
    PushesReceived (datagrams ++ s.receipt (.rx outcome)) (es ++ (s.rxStep outcome).2)
      (s.rxStep outcome).1 := by
  cases hrx : s.rx with
  | testShutdown =>
    have hreceipt : s.receipt (.rx outcome) = [] := by cases outcome <;> simp only [receipt, hrx]
    rw [hreceipt]
    simp only [ReceiverState.rxStep, hrx]
    refine h.quiet ?_ rfl
    rw [hrx]
    split_ifs <;> rfl
  | ended =>
    have hreceipt : s.receipt (.rx outcome) = [] := by cases outcome <;> simp only [receipt, hrx]
    rw [hreceipt]
    simp only [ReceiverState.rxStep, hrx]
    exact h.quiet rfl rfl
  | pushing pkt =>
    have hreceipt : s.receipt (.rx outcome) = [] := by cases outcome <;> simp only [receipt, hrx]
    rw [PushesReceived, hrx] at h
    rw [hreceipt]
    simp only [ReceiverState.rxStep, hrx]
    rw [PushesReceived, List.append_nil, h]
    cases (s.queue.push pkt).2 <;> simp [ReceiverEvent.pushedPacket, RxPosition.inHand]
  | polling =>
    simp only [ReceiverState.rxStep, hrx]
    cases outcome with
    | received datagram =>
      rw [PushesReceived, hrx] at h
      simp only [receipt, hrx, PushesReceived, List.filterMap_append, h, rxPolled]
      cases hd : receivedPacket datagram <;> rw [receivedPacket] at hd <;>
        simp [receivedPacket, hd, RxPosition.inHand]
    | _ => exact h.quiet (by rw [hrx]; rfl) rfl

theorem PushesReceived.step {datagrams : List (List UInt8)} (h : PushesReceived datagrams es s)
    (a : ReceiverMove) :
    PushesReceived (datagrams ++ s.receipt a) (es ++ (s.step a).2) (s.step a).1 := by
  cases a with
  | signal => exact h.quiet rfl rfl
  | advance elapsed => exact h.quiet rfl rfl
  | rx outcome => exact h.rxStep outcome
  | worker =>
    obtain ⟨hrx, hes⟩ := s.workerStep_rx
    exact h.quiet (congrArg RxPosition.inHand hrx) hes

theorem pushesReceived_run (clock : ℤ) (moves : List ReceiverMove) :
    PushesReceived (receipts clock moves) (machine.outputs (init clock) moves)
      (machine.state (init clock) moves) := by
  have hinit : PushesReceived [] [] (init clock) := rfl
  exact machine.callsTo_invariant receipt hinit (fun _ _ _ a h => h.step a) moves

/-- Every interleaving of the receiver is a sequential use of the manager: its state and its
outputs are those of the calls `managerCalls`, which hand over the packets of the received
datagrams in order, less the rejected ones, under readings of the clock and of the drop counter
that only grow. -/
theorem receiver_refines_manager (clock : ℤ) (moves : List ReceiverMove) :
    let s := machine.state (init clock) moves
    let es := machine.outputs (init clock) moves
    let calls := managerCalls clock moves
    (s.manager = FrameReassemblerManager.machine.state
        (.new Receiver.maxFrameSize Receiver.payloadStride) calls ∧
      es.filterMap ReceiverEvent.managerOutput = FrameReassemblerManager.machine.outputs
        (.new Receiver.maxFrameSize Receiver.payloadStride) calls) ∧
    PushesReceived (receipts clock moves) es s ∧ UsedInOrder clock calls es s :=
  ⟨manager_run clock moves, pushesReceived_run clock moves, (usedInOrder_run clock moves).1⟩

end ReceiverState

end HvFrame
