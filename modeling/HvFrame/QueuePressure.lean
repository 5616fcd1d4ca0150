import HvFrame.FrameJournals
import HvFrame.ShutdownDrain

/-!
# Which drops a frame is blamed for

The worker reads the drop counter when it has popped the packet that opens an entry, and
again before the `pollTimers` call that reports the frame. The flag `queuePressure` says
whether a packet was rejected between these two reads, whatever its frame; rejections before
the first read are not attributed, even those of the frame itself.
-/

namespace HvFrame

namespace ReceiverEvent

def isRejected : ReceiverEvent → Bool
  | .rejected _ => true
  | _ => false

end ReceiverEvent

namespace ReceiverState

variable {s : ReceiverState} {moves : List ReceiverMove} {clock : ℤ} {frameId : UInt32}

theorem workerStep_dropped (s : ReceiverState) :
    s.workerStep.1.queue.dropped = s.queue.dropped ∧
      s.workerStep.2.countP ReceiverEvent.isRejected = 0 := by
  cases h : s.worker with
  | popUntil =>
    obtain ⟨hout, -, hdropped, -⟩ := s.popUntil_frame (Or.inl h)
    exact ⟨hdropped, by rw [hout]; rfl⟩
  | waiting =>
    obtain ⟨hout, -, hdropped, -⟩ := s.popUntil_frame (Or.inr h)
    exact ⟨hdropped, by rw [hout]; rfl⟩
  | _ => simp [workerStep, h, ReceiverEvent.isRejected]

theorem step_dropped (s : ReceiverState) (a : ReceiverMove) :
    (s.step a).1.queue.dropped =
      s.queue.dropped + (s.step a).2.countP ReceiverEvent.isRejected := by
  cases a with
  | signal => rfl
  | advance elapsed => rfl
  | rx outcome =>
    rcases s.rxStep_cases outcome with ⟨position, he⟩ | ⟨pkt, -, he⟩
    · rw [step, he]
      rfl
    · rw [step, he]
      rcases s.queue.push_cases pkt with ⟨-, hpush⟩ | ⟨-, hpush⟩ <;>
        simp [hpush, ReceiverEvent.isRejected]
  | worker =>
    obtain ⟨hdropped, hcount⟩ := s.workerStep_dropped
    rw [step, hdropped, hcount, Nat.add_zero]

theorem state_dropped (s : ReceiverState) (moves : List ReceiverMove) :
    (machine.state s moves).queue.dropped =
      s.queue.dropped + (machine.outputs s moves).countP ReceiverEvent.isRejected := by
  induction moves generalizing s with
  | nil => rfl
  | cons a moves ih =>
    have hstep := s.step_dropped a
    simp only [OutputMachine.state_cons, OutputMachine.outputs_cons, List.countP_append,
      machine_step, ih]
    omega

theorem manager_ids {k : UInt32} {e : FrameEntry}
    (h : (machine.state (init clock) moves).manager.frames.find? k = some e) :
    e.reassembler.currentFrameId = k := by
  obtain ⟨calls, hcalls⟩ := manager_reachable clock moves
  rw [hcalls] at h
  exact FrameReassemblerManager.currentFrameId_of_find? h

def Unreported (frameId : UInt32) (es : List ReceiverEvent) : Prop :=
  ∀ r, .managed (.onFrameDone r) ∈ es → r.frameId ≠ frameId

theorem Unreported.append {es es' : List ReceiverEvent} (h : Unreported frameId es)
    (h' : Unreported frameId es') : Unreported frameId (es ++ es') :=
  fun r hr => (List.mem_append.mp hr).elim (h r) (h' r)

/-- Nothing but a poll reports a frame; it reports live entries that have a verdict. -/
theorem reported_of_workerStep {r : FrameResult}
    (h : .managed (.onFrameDone r) ∈ s.workerStep.2) :
    ∃ now drops k e state, s.worker = .pollTimers now drops ∧
      s.manager.frames.find? k = some e ∧ e.timerVerdict s.clock = some state ∧
      r = e.result state drops := by
  rcases s.workerStep_cases with ⟨pkt, queueNow, -, he⟩ | ⟨now, drops, hworker, he⟩ | ⟨-, he⟩ |
    ⟨-, -, hnone⟩
  · simp [he] at h
  · rw [he] at h
    obtain ⟨out, hout, heq⟩ := List.mem_map.mp h
    obtain rfl := ReceiverEvent.managed.inj heq
    rw [FrameReassemblerManager.pollTimers,
      (s.manager.emitLoop_reports (fun e => e.timerVerdict s.clock) drops).2] at hout
    obtain ⟨d, hd, hr⟩ := List.mem_map.mp hout
    obtain ⟨⟨k, e⟩, hmem, hdue⟩ := List.mem_filterMap.mp hd
    obtain ⟨state, hstate, rfl⟩ := Option.map_eq_some_iff.mp hdue
    exact ⟨now, drops, k, e, state, hworker, (OrderedMap.mem_entries_iff _ k e).mp hmem, hstate,
      (ManagerOutput.onFrameDone.inj hr).symm⟩
  · rw [he] at h
    simp [FrameReassemblerManager.flushAll] at h
  · exact absurd h (hnone _)

theorem reported_of_verdict {now : ℤ} {drops : ℕ} {e : FrameEntry} {state : FrameState}
    (hworker : s.worker = .pollTimers now drops) (he : s.manager.frames.find? frameId = some e)
    (hverdict : e.timerVerdict s.clock = some state) :
    .managed (.onFrameDone (e.result state drops)) ∈ s.workerStep.2 := by
  simp only [workerStep, hworker]
  refine List.mem_map.mpr ⟨_, ?_, rfl⟩
  rw [FrameReassemblerManager.pollTimers,
    (s.manager.emitLoop_reports (fun e => e.timerVerdict s.clock) drops).2]
  exact List.mem_map.mpr ⟨(e, state), List.mem_filterMap.mpr
    ⟨(frameId, e), (OrderedMap.mem_entries_iff _ frameId e).mpr he, by simp [hverdict]⟩, rfl⟩

theorem find?_of_poll {now : ℤ} {drops : ℕ} (hworker : s.worker = .pollTimers now drops) :
    s.workerStep.1.manager.frames.find? frameId =
      (s.manager.frames.find? frameId).filter (fun e => (e.timerVerdict s.clock).isNone) := by
  simp only [workerStep, hworker]
  exact s.manager.emitLoop_find? (fun e => e.timerVerdict s.clock) drops frameId

theorem find?_of_unreported {now : ℤ} {drops : ℕ} (hworker : s.worker = .pollTimers now drops)
    (hids : ∀ k e, s.manager.frames.find? k = some e → e.reassembler.currentFrameId = k)
    {e : FrameEntry} (he : s.manager.frames.find? frameId = some e)
    (hquiet : Unreported frameId s.workerStep.2) :
    s.workerStep.1.manager.frames.find? frameId = some e := by
  rw [find?_of_poll hworker, he]
  cases hverdict : e.timerVerdict s.clock with
  | none => simp [Option.filter_some, hverdict]
  | some state =>
    exact absurd (hids frameId e he) (hquiet _ (reported_of_verdict hworker he hverdict))

theorem unreported_of_live {a : ReceiverMove}
    (hids : ∀ k e, s.manager.frames.find? k = some e → e.reassembler.currentFrameId = k)
    (hlive : (s.step a).1.manager.frames.find? frameId ≠ none) :
    Unreported frameId (s.step a).2 := by
  rintro r hr rfl
  by_cases ha : a = .worker
  · subst ha
    obtain ⟨now, drops, k, e, state, hworker, he, hverdict, heq⟩ := reported_of_workerStep hr
    have hk : r.frameId = k := (congrArg FrameResult.frameId heq).trans (hids k e he)
    refine hlive ?_
    rw [step, find?_of_poll hworker, hk, he]
    simp [Option.filter_some, hverdict]
  · exact (step_of_ne_worker ha s).2.2 _ hr

/-- Where the worker stands with a frame whose opening packet it sampled at `drops`. -/
def OpenedAt (frameId : UInt32) (pkt : RxPacket) (drops : ℕ) (s : ReceiverState) : Prop :=
  (s.worker = .sampled pkt drops ∧ s.manager.frames.find? frameId = none) ∨
    (∃ e, s.manager.frames.find? frameId = some e ∧ e.queueDropAtStart = drops) ∨
    s.worker = .ended

/-- A step that does not report the frame keeps the drop count of its entry. -/
theorem OpenedAt.step {pkt : RxPacket} {drops : ℕ} (h : OpenedAt frameId pkt drops s)
    (hid : pkt.hdr.frameId = frameId)
    (hids : ∀ k e, s.manager.frames.find? k = some e → e.reassembler.currentFrameId = k)
    {a : ReceiverMove} (hquiet : Unreported frameId (s.step a).2) :
    OpenedAt frameId pkt drops (s.step a).1 := by
  by_cases ha : a = .worker
  · subst ha
    rw [ReceiverState.step] at hquiet ⊢
    rcases h with ⟨hworker, hfree⟩ | ⟨e, he, hdrops⟩ | hended
    · refine Or.inr (Or.inl ⟨(FrameEntry.opened s.manager.maxFrameSize s.manager.payloadStride pkt
        drops s.clock).receive pkt s.clock, ?_, rfl⟩)
      simp [workerStep, hworker, hid, hfree]
    · rcases s.workerStep_cases with ⟨pkt', queueNow, -, hstep⟩ | ⟨now, drops', hworker, -⟩ |
        ⟨-, hstep⟩ | ⟨-, hmanager, -⟩
      · rw [hstep]
        by_cases hid' : pkt'.hdr.frameId = frameId
        · refine Or.inr (Or.inl ⟨e.receive pkt' s.clock, ?_, hdrops⟩)
          simp [hid', he]
        · exact Or.inr (Or.inl ⟨e, by simp [hid', he], hdrops⟩)
      · exact Or.inr (Or.inl ⟨e, find?_of_unreported hworker hids he hquiet, hdrops⟩)
      · rw [hstep]
        exact Or.inr (Or.inr rfl)
      · exact Or.inr (Or.inl ⟨e, hmanager ▸ he, hdrops⟩)
    · exact Or.inr (Or.inr (by simp [workerStep, hended]))
  · obtain ⟨hworker, hmanager, -⟩ := step_of_ne_worker ha s
    rw [OpenedAt, hworker, hmanager]
    exact h

/-- The part of a run that decides the flag of a result for `frameId` reported by the next
worker step: from the read of the drop counter for the packet that opened the entry, over a
stretch without a result for the frame, to the read for the poll, after which the worker
does not move. -/
structure AttributionWindow (clock : ℤ) (moves : List ReceiverMove) (frameId : UInt32) where
  before : List ReceiverMove
  during : List ReceiverMove
  after : List ReceiverMove
  pkt : RxPacket
  split : moves = before ++ .worker :: (during ++ .worker :: after)
  sampling : (machine.state (init clock) before).worker = .popped pkt
  own : pkt.hdr.frameId = frameId
  opens : (machine.state (init clock) before).manager.frames.find? frameId = none
  pending : Unreported frameId
    (machine.outputs (machine.state (init clock) (before ++ [.worker])) during)
  due : ∃ now, (machine.state (init clock) (before ++ .worker :: during)).worker = .timerDue now
  last : .worker ∉ after

def AttributionWindow.events {clock : ℤ} {moves : List ReceiverMove} {frameId : UInt32}
    (w : AttributionWindow clock moves frameId) : List ReceiverEvent :=
  machine.outputs (machine.state (init clock) (w.before ++ [.worker])) w.during

theorem state_of_no_worker (s : ReceiverState) {moves : List ReceiverMove}
    (h : .worker ∉ moves) :
    (machine.state s moves).worker = s.worker ∧ (machine.state s moves).manager = s.manager ∧
      ∀ out, .managed out ∉ machine.outputs s moves := by
  induction moves generalizing s with
  | nil => simp
  | cons a moves ih =>
    obtain ⟨hworker, hmanager, hnone⟩ := step_of_ne_worker (fun ha => h (ha ▸ List.mem_cons_self)) s
    obtain ⟨hworker', hmanager', hnone'⟩ :=
      ih (s.step a).1 (List.not_mem_of_not_mem_cons h)
    simp only [OutputMachine.state_cons, OutputMachine.outputs_cons, machine_step, List.mem_append,
      not_or]
    exact ⟨hworker'.trans hworker, hmanager'.trans hmanager, fun out => ⟨hnone out, hnone' out⟩⟩

theorem openedAt_run {before during : List ReceiverMove} {pkt : RxPacket}
    (hsampling : (machine.state (init clock) before).worker = .popped pkt)
    (hown : pkt.hdr.frameId = frameId)
    (hopens : (machine.state (init clock) before).manager.frames.find? frameId = none)
    (hpending : Unreported frameId
      (machine.outputs (machine.state (init clock) (before ++ [.worker])) during)) :
    OpenedAt frameId pkt (machine.state (init clock) before).queue.dropped
      (machine.state (machine.state (init clock) (before ++ [.worker])) during) := by
  induction during using List.reverseRecOn with
  | nil =>
    refine Or.inl ⟨?_, ?_⟩
    · simp [step, workerStep, hsampling]
    · simpa [step, workerStep, hsampling] using hopens
  | append_singleton during a ih =>
    rw [OutputMachine.outputs_append] at hpending
    have hprev := ih (fun r hr => hpending r (List.mem_append_left _ hr))
    rw [OutputMachine.state_append]
    refine hprev.step hown (fun k e he => ?_)
      (fun r hr => hpending r (List.mem_append_right _ (by simpa using hr)))
    rw [← OutputMachine.state_append] at he
    exact manager_ids he

/-- The drop counter at the second read of a window, from the rejections between the reads. -/
theorem dropped_of_window {before : List ReceiverMove} (during : List ReceiverMove)
    {pkt : RxPacket}
    (hsampling : (machine.state (init clock) before).worker = .popped pkt) :
    (machine.state (init clock) (before ++ .worker :: during)).queue.dropped =
      (machine.state (init clock) before).queue.dropped +
        (machine.outputs (machine.state (init clock) (before ++ [.worker])) during).countP
          ReceiverEvent.isRejected := by
  rw [← List.singleton_append, ← List.append_assoc, OutputMachine.state_append, state_dropped]
  congr 1
  simp [step, workerStep, hsampling]

theorem state_of_split {before after : List ReceiverMove} {now : ℤ}
    (hdue : (machine.state (init clock) before).worker = .timerDue now) (hlast : .worker ∉ after) :
    (machine.state (init clock) (before ++ .worker :: after)).worker =
        .pollTimers now (machine.state (init clock) before).queue.dropped ∧
      (machine.state (init clock) (before ++ .worker :: after)).manager =
        (machine.state (init clock) before).manager := by
  rw [OutputMachine.state_append, OutputMachine.state_cons]
  obtain ⟨hworker, hmanager, -⟩ := state_of_no_worker
    (machine.step (machine.state (init clock) before) .worker).1 hlast
  rw [hworker, hmanager]
  simp [step, workerStep, hdue]

/-- The flag of a result, from any window that ends with the step that reports it. -/
theorem queuePressure_of_window {r : FrameResult}
    (hreported : .managed (.onFrameDone r) ∈ (machine.state (init clock) moves).workerStep.2)
    (w : AttributionWindow clock moves r.frameId) :
    r.queuePressure = true ↔ ∃ pkt, .rejected pkt ∈ w.events := by
  obtain ⟨now', drops, k, e, state, hworker, he, -, hr⟩ := reported_of_workerStep hreported
  obtain ⟨now, hdue⟩ := w.due
  have hsplit : moves = (w.before ++ .worker :: w.during) ++ .worker :: w.after := by
    rw [List.append_assoc, List.cons_append]
    exact w.split
  obtain ⟨hpoll, hmanager⟩ := state_of_split hdue w.last
  rw [← hsplit, hworker] at hpoll
  rw [← hsplit] at hmanager
  obtain ⟨-, rfl⟩ := WorkerPosition.pollTimers.inj hpoll
  have hk : r.frameId = k := (congrArg FrameResult.frameId hr).trans (manager_ids he)
  rw [hmanager, ← hk] at he
  have hopened := openedAt_run w.sampling w.own w.opens w.pending
  rw [← OutputMachine.state_append, List.append_assoc, List.singleton_append] at hopened
  have hdrops : e.queueDropAtStart = (machine.state (init clock) w.before).queue.dropped := by
    rcases hopened with ⟨hsampled, -⟩ | ⟨e', he', hdrops⟩ | hended
    · rw [hdue] at hsampled
      cases hsampled
    · rw [he] at he'
      exact Option.some.inj he' ▸ hdrops
    · rw [hdue] at hended
      cases hended
  have hflag : r.queuePressure = true ↔ 0 < w.events.countP ReceiverEvent.isRejected := by
    have hpressure : r.queuePressure = decide (e.queueDropAtStart <
        (machine.state (init clock) (w.before ++ .worker :: w.during)).queue.dropped) :=
      congrArg FrameResult.queuePressure hr
    rw [hpressure, decide_eq_true_eq, hdrops, dropped_of_window w.during w.sampling,
      AttributionWindow.events]
    omega
  rw [hflag, List.countP_pos_iff]
  constructor
  · rintro ⟨ev, hev, hrej⟩
    cases ev with
    | rejected pkt => exact ⟨pkt, hev⟩
    | _ => simp [ReceiverEvent.isRejected] at hrej
  · rintro ⟨pkt, hpkt⟩
    exact ⟨_, hpkt, rfl⟩

theorem exists_last_worker (h : .worker ∈ moves) :
    ∃ before after, moves = before ++ .worker :: after ∧ .worker ∉ after := by
  induction moves using List.reverseRecOn with
  | nil => cases h
  | append_singleton moves a ih =>
    by_cases ha : a = .worker
    · exact ⟨moves, [], by rw [ha], List.not_mem_nil⟩
    · have hmem : .worker ∈ moves := by
        rcases List.mem_append.mp h with h | h
        · exact h
        · exact absurd (List.mem_singleton.mp h).symm ha
      obtain ⟨before, after, rfl, hlast⟩ := ih hmem
      refine ⟨before, after ++ [a], by simp, ?_⟩
      rw [List.mem_append, List.mem_singleton]
      exact fun h => h.elim hlast (fun h => ha h.symm)

theorem exists_last_step (h : (machine.state (init clock) moves).worker ≠ .start) :
    ∃ before after, moves = before ++ .worker :: after ∧ .worker ∉ after ∧
      (machine.state (init clock) moves).worker =
        (machine.state (init clock) before).workerStep.1.worker ∧
      (machine.state (init clock) moves).manager =
        (machine.state (init clock) before).workerStep.1.manager := by
  have hmem : .worker ∈ moves := by
    by_contra hnot
    exact h (state_of_no_worker _ hnot).1
  obtain ⟨before, after, rfl, hlast⟩ := exists_last_worker hmem
  obtain ⟨hworker, hmanager, -⟩ := state_of_no_worker
    (machine.step (machine.state (init clock) before) .worker).1 hlast
  rw [OutputMachine.state_append, OutputMachine.state_cons]
  exact ⟨before, after, rfl, hlast, hworker, hmanager⟩

theorem popUntil_samples_nothing (h : s.worker = .popUntil ∨ s.worker = .waiting) :
    (∀ pkt drops, s.workerStep.1.worker ≠ .sampled pkt drops) ∧
      ∀ now drops, s.workerStep.1.worker ≠ .pollTimers now drops := by
  obtain ⟨-, -, -, he | he | ⟨pkt, he⟩⟩ := s.popUntil_frame h <;> simp [he]

theorem popped_of_workerStep {pkt : RxPacket} {drops : ℕ}
    (h : s.workerStep.1.worker = .sampled pkt drops) : s.worker = .popped pkt := by
  cases hworker : s.worker with
  | popped pkt' =>
    simp only [workerStep, hworker] at h
    rw [(WorkerPosition.sampled.inj h).1]
  | popUntil => exact absurd h ((popUntil_samples_nothing (Or.inl hworker)).1 _ _)
  | waiting => exact absurd h ((popUntil_samples_nothing (Or.inr hworker)).1 _ _)
  | _ => simp [workerStep, hworker] at h <;> split_ifs at h

theorem timerDue_of_workerStep {now : ℤ} {drops : ℕ}
    (h : s.workerStep.1.worker = .pollTimers now drops) : s.worker = .timerDue now := by
  cases hworker : s.worker with
  | timerDue now' =>
    simp only [workerStep, hworker] at h
    rw [(WorkerPosition.pollTimers.inj h).1]
  | popUntil => exact absurd h ((popUntil_samples_nothing (Or.inl hworker)).2 _ _)
  | waiting => exact absurd h ((popUntil_samples_nothing (Or.inr hworker)).2 _ _)
  | _ => simp [workerStep, hworker] at h <;> split_ifs at h

/-- A step that opens a frame hands over the packet that the worker holds. -/
theorem sampled_of_opening {a : ReceiverMove} (hfree : s.manager.frames.find? frameId = none)
    (hlive : (s.step a).1.manager.frames.find? frameId ≠ none) :
    a = .worker ∧ ∃ pkt drops, s.worker = .sampled pkt drops ∧ pkt.hdr.frameId = frameId ∧
      s.workerStep.2 = [.handed pkt] := by
  have ha : a = .worker := by
    by_contra ha
    rw [(step_of_ne_worker ha s).2.1] at hlive
    exact hlive hfree
  subst ha
  refine ⟨rfl, ?_⟩
  rw [step] at hlive
  rcases s.workerStep_cases with ⟨pkt, drops, hworker, he⟩ | ⟨now, drops, hworker, -⟩ |
    ⟨-, he⟩ | ⟨-, he, -⟩
  · refine ⟨pkt, drops, hworker, ?_, by rw [he]⟩
    by_contra hid
    rw [he] at hlive
    simp [hid, hfree] at hlive
  · rw [find?_of_poll hworker, hfree] at hlive
    simp at hlive
  · rw [he] at hlive
    exact absurd rfl hlive
  · rw [he] at hlive
    exact absurd hfree hlive

/-- Where the entry of a live frame comes from. -/
theorem exists_opening
    (h : (machine.state (init clock) moves).manager.frames.find? frameId ≠ none) :
    ∃ before during pkt, moves = before ++ .worker :: during ∧
      (machine.state (init clock) before).worker = .popped pkt ∧ pkt.hdr.frameId = frameId ∧
      (machine.state (init clock) before).manager.frames.find? frameId = none ∧
      Unreported frameId
        (machine.outputs (machine.state (init clock) (before ++ [.worker])) during) := by
  induction moves using List.reverseRecOn with
  | nil => exact absurd rfl h
  | append_singleton moves a ih =>
    rw [OutputMachine.state_append] at h
    by_cases hfree : (machine.state (init clock) moves).manager.frames.find? frameId = none
    · obtain ⟨rfl, pkt, drops, hworker, hid, hout⟩ := sampled_of_opening hfree h
      obtain ⟨before, after, rfl, hlast, hworker', hmanager⟩ :=
        exists_last_step (hworker.trans_ne (by simp))
      have hpopped := popped_of_workerStep (hworker'.symm.trans hworker)
      refine ⟨before, after ++ [.worker], pkt, by simp, hpopped, hid, ?_, ?_⟩
      · rw [hmanager] at hfree
        simpa [workerStep, hpopped] using hfree
      · rw [OutputMachine.outputs_append]
        refine Unreported.append (fun r hr => absurd hr ((state_of_no_worker _ hlast).2.2 _)) ?_
        rw [← OutputMachine.state_append, List.append_assoc, List.singleton_append]
        intro r hr
        rw [OutputMachine.outputs_cons, OutputMachine.outputs_nil, List.append_nil, machine_step,
          step, hout] at hr
        simp at hr
    · obtain ⟨before, during, pkt, rfl, hpopped, hid, hopens, hpending⟩ := ih hfree
      refine ⟨before, during ++ [a], pkt, by simp, hpopped, hid, hopens, ?_⟩
      rw [OutputMachine.outputs_append]
      refine hpending.append ?_
      rw [← OutputMachine.state_append, List.append_assoc, List.singleton_append,
        OutputMachine.outputs_cons, OutputMachine.outputs_nil, List.append_nil]
      exact unreported_of_live (fun k e he => manager_ids he) h

/-- The next worker step polls, and the poll reports `frameId`. -/
def Due (frameId : UInt32) (s : ReceiverState) : Prop :=
  (∃ now drops, s.worker = .pollTimers now drops) ∧
    ∃ e state, s.manager.frames.find? frameId = some e ∧ e.timerVerdict s.clock = some state

theorem due_of_reported {r : FrameResult}
    (h : .managed (.onFrameDone r) ∈ (machine.state (init clock) moves).workerStep.2) :
    Due r.frameId (machine.state (init clock) moves) := by
  obtain ⟨now, drops, k, e, state, hworker, he, hverdict, hr⟩ := reported_of_workerStep h
  have hk : r.frameId = k := (congrArg FrameResult.frameId hr).trans (manager_ids he)
  exact ⟨⟨now, drops, hworker⟩, e, state, hk ▸ he, hverdict⟩

/-- Before each report lies the window that decides its flag. -/
theorem exists_window (h : Due frameId (machine.state (init clock) moves)) :
    Nonempty (AttributionWindow clock moves frameId) := by
  obtain ⟨⟨now, drops, hworker⟩, e, state, he, -⟩ := h
  obtain ⟨before', after, rfl, hlast, hworker', hmanager⟩ :=
    exists_last_step (hworker.trans_ne (by simp))
  have hdue := timerDue_of_workerStep (hworker'.symm.trans hworker)
  have hlive : (machine.state (init clock) before').manager.frames.find? frameId ≠ none := by
    rw [hmanager] at he
    simp only [workerStep, hdue] at he
    simp [he]
  obtain ⟨before, during, pkt, rfl, hpopped, hid, hopens, hpending⟩ := exists_opening hlive
  exact ⟨⟨before, during, after, pkt, by simp, hpopped, hid, hopens, hpending, ⟨now, hdue⟩, hlast⟩⟩

/-- A packet of the frame was rejected after one was accepted. -/
def DroppedWhileReceiving (frameId : UInt32) (es : List ReceiverEvent) : Prop :=
  ∃ received pending first lost, es = received ++ pending ∧
    .accepted first ∈ received ∧ first.hdr.frameId = frameId ∧
    .rejected lost ∈ pending ∧ lost.hdr.frameId = frameId

/-- Every result for a frame that lost packets to the queue while it was received says so. -/
def DropsAttributed (es : List ReceiverEvent) : Prop :=
  ∀ before r after, es = before ++ .managed (.onFrameDone r) :: after →
    DroppedWhileReceiving r.frameId before → r.queuePressure = true

theorem DroppedWhileReceiving.append {es : List ReceiverEvent}
    (h : DroppedWhileReceiving frameId es) (es' : List ReceiverEvent) :
    DroppedWhileReceiving frameId (es ++ es') := by
  obtain ⟨received, pending, first, lost, rfl, hfirst, hid, hlost, hid'⟩ := h
  exact ⟨received, pending ++ es', first, lost, List.append_assoc _ _ _, hfirst, hid,
    List.mem_append_left _ hlost, hid'⟩

theorem DroppedWhileReceiving.of_append {es es' : List ReceiverEvent}
    (h : DroppedWhileReceiving frameId (es ++ es')) (hes' : ∀ pkt, .rejected pkt ∉ es') :
    DroppedWhileReceiving frameId es := by
  obtain ⟨received, pending, first, lost, heq, hfirst, hid, hlost, hid'⟩ := h
  rcases List.append_eq_append_iff.mp heq with ⟨c, -, rfl⟩ | ⟨c, rfl, rfl⟩
  · exact absurd (List.mem_append_right _ hlost) (hes' lost)
  · refine ⟨received, c, first, lost, rfl, hfirst, hid, ?_, hid'⟩
    exact (List.mem_append.mp hlost).resolve_right (hes' lost)

theorem rejected_notMem_workerStep (s : ReceiverState) (pkt : RxPacket) :
    .rejected pkt ∉ s.workerStep.2 := by
  intro h
  have hpos : 0 < s.workerStep.2.countP ReceiverEvent.isRejected :=
    List.countP_pos_iff.mpr ⟨_, h, rfl⟩
  rw [s.workerStep_dropped.2] at hpos
  exact Nat.lt_irrefl 0 hpos

/-- A run attributes the drops exactly if, whenever a poll reports a frame that lost packets
to the queue, some packet was rejected between the two reads of the drop counter. -/
theorem dropsAttributed_iff (clock : ℤ) (moves : List ReceiverMove) :
    DropsAttributed (machine.outputs (init clock) moves) ↔
      ∀ before after frameId, moves = before ++ .worker :: after →
        Due frameId (machine.state (init clock) before) →
        DroppedWhileReceiving frameId (machine.outputs (init clock) before) →
        ∃ (w : AttributionWindow clock before frameId) (pkt : RxPacket),
          .rejected pkt ∈ w.events := by
  constructor
  · rintro h before after frameId rfl hdue hlost
    obtain ⟨w⟩ := exists_window hdue
    obtain ⟨⟨now, drops, hworker⟩, e, state, he, hverdict⟩ := hdue
    have hreported := reported_of_verdict hworker he hverdict
    have hid : (e.result state drops).frameId = frameId := manager_ids he
    obtain ⟨past, future, hstep⟩ := List.append_of_mem hreported
    subst hid
    refine ⟨w, (queuePressure_of_window hreported w).mp ?_⟩
    refine h (machine.outputs (init clock) before ++ past) (e.result state drops) (future ++
      machine.outputs (machine.state (init clock) (before ++ [.worker])) after) ?_ ?_
    · rw [OutputMachine.outputs_append, OutputMachine.outputs_cons, machine_step, step, hstep]
      simp [step]
    · exact hlost.append past
  · intro h past r future heq hlost
    obtain ⟨before, a, after, past', future', rfl, rfl, hstep⟩ :=
      machine.exists_step_of_outputs heq
    have hmem : .managed (.onFrameDone r) ∈
        ((machine.state (init clock) before).step a).2 := by
      rw [← machine_step, hstep]
      exact List.mem_append_right _ List.mem_cons_self
    have ha : a = .worker := by
      by_contra ha
      exact (step_of_ne_worker ha _).2.2 _ hmem
    subst ha
    have hquiet : ∀ pkt, .rejected pkt ∉ past' := by
      intro pkt hpkt
      refine (machine.state (init clock) before).rejected_notMem_workerStep pkt ?_
      rw [machine_step, step] at hstep
      rw [hstep]
      exact List.mem_append_left _ hpkt
    obtain ⟨w, hw⟩ := h before after r.frameId rfl (due_of_reported hmem) (hlost.of_append hquiet)
    exact (queuePressure_of_window hmem w).mpr hw

/-- The receive thread's moves for one datagram: test the flag, receive, push. -/
def receiveMoves (datagram : List UInt8) : List ReceiverMove :=
  [.rx .timeout, .rx (.received datagram), .rx .timeout]

def backlogged (items : List RxPacket) (drops : ℕ) : ReceiverState :=
  { init 0 with queue := ⟨Receiver.maxQueueSize, items, drops⟩ }

section Backlog

variable {datagram : List UInt8} {pkt : RxPacket}
  (hpkt : rxDatagram (datagram.take Receiver.bufSize) = some pkt) (items : List RxPacket)
  (drops : ℕ)

include hpkt

theorem receiveMoves_accepted (hroom : items.length < Receiver.maxQueueSize) :
    machine.state (backlogged items drops) (receiveMoves datagram) =
        backlogged (items ++ [pkt]) drops ∧
      machine.outputs (backlogged items drops) (receiveMoves datagram) = [.accepted pkt] := by
  have hpush : (PacketQueue.mk Receiver.maxQueueSize items drops).push pkt =
      (⟨Receiver.maxQueueSize, items ++ [pkt], drops⟩, true) := if_neg (Nat.not_le.mpr hroom)
  simp [receiveMoves, backlogged, init, step, rxStep, rxPolled, hpkt, hpush]

theorem receiveMoves_rejected (hfull : Receiver.maxQueueSize ≤ items.length) :
    machine.state (backlogged items drops) (receiveMoves datagram) =
        backlogged items (drops + 1) ∧
      machine.outputs (backlogged items drops) (receiveMoves datagram) = [.rejected pkt] := by
  have hpush : (PacketQueue.mk Receiver.maxQueueSize items drops).push pkt =
      (⟨Receiver.maxQueueSize, items, drops + 1⟩, false) := if_pos hfull
  simp [receiveMoves, backlogged, init, step, rxStep, rxPolled, hpkt, hpush]

theorem receiveMoves_replicate (n : ℕ) (hroom : items.length + n ≤ Receiver.maxQueueSize) :
    machine.state (backlogged items drops) (List.replicate n (receiveMoves datagram)).flatten =
      backlogged (items ++ List.replicate n pkt) drops := by
  induction n generalizing items with
  | zero => simp
  | succ n ih =>
    have hroom' : (items ++ [pkt]).length + n ≤ Receiver.maxQueueSize := by
      rw [List.length_append, List.length_singleton]
      omega
    rw [List.replicate_succ, List.flatten_cons, OutputMachine.state_append,
      (receiveMoves_accepted hpkt items drops (by omega)).1, ih _ hroom', List.append_assoc]
    rfl

end Backlog

def halfPacket (frameId : UInt32) (packetId : UInt16) : RxPacket :=
  ⟨⟨frameId, packetId, 2, 1⟩, fun i => [7].getD i 0, false⟩

def halfDatagram (frameId : UInt32) (packetId : UInt16) : List UInt8 :=
  UdpPacketHeader.bytes ⟨frameId, packetId, 2, 1⟩ ++ [7]

theorem rxDatagram_halfDatagram (frameId : UInt32) (packetId : UInt16) :
    rxDatagram ((halfDatagram frameId packetId).take Receiver.bufSize) =
      some (halfPacket frameId packetId) := by
  rw [List.take_of_length_le (by simp [halfDatagram, UdpPacketHeader.byteSize, Receiver.bufSize])]
  exact rxDatagram_append _ [7] (by simp) rfl

def lateWorkerMoves : List ReceiverMove :=
  [.worker, .worker, .worker, .worker, .advance 31000000, .worker, .worker, .worker]

theorem lateWorkerMoves_outputs (rest : List RxPacket) (drops : ℕ) :
    ∃ r, r.frameId = 1 ∧ r.queuePressure = false ∧
      machine.outputs (backlogged (halfPacket 1 0 :: rest) drops) lateWorkerMoves =
        [.handed (halfPacket 1 0), .managed (.onFrameDone r)] :=
  ⟨_, rfl, decide_eq_false (Nat.lt_irrefl drops), rfl⟩

/-- The first packet of frame 1 is accepted, packets of frame 2 fill the queue, the second
packet of frame 1 is rejected, and only then does the worker run. -/
def overloadedRun : List ReceiverMove :=
  receiveMoves (halfDatagram 1 0) ++
    ((List.replicate 16383 (receiveMoves (halfDatagram 2 0))).flatten ++
      (receiveMoves (halfDatagram 1 1) ++ lateWorkerMoves))

theorem overloadedRun_outputs :
    ∃ r filling, r.frameId = 1 ∧ r.queuePressure = false ∧
      machine.outputs (init 0) overloadedRun =
        .accepted (halfPacket 1 0) :: (filling ++
          [.rejected (halfPacket 1 1), .handed (halfPacket 1 0), .managed (.onFrameDone r)]) := by
  have hempty : init 0 = backlogged [] 0 := rfl
  have hopen := receiveMoves_accepted (rxDatagram_halfDatagram 1 0) [] 0 (by decide)
  have hfill := receiveMoves_replicate (rxDatagram_halfDatagram 2 0) [halfPacket 1 0] 0 16383
    (by decide)
  rw [List.singleton_append] at hfill
  have hlose := receiveMoves_rejected (rxDatagram_halfDatagram 1 1)
    (halfPacket 1 0 :: List.replicate 16383 (halfPacket 2 0)) 0
    (by rw [List.length_cons, List.length_replicate]; decide)
  obtain ⟨r, hid, hflag, hworker⟩ :=
    lateWorkerMoves_outputs (List.replicate 16383 (halfPacket 2 0)) 1
  refine ⟨r, machine.outputs (backlogged [halfPacket 1 0] 0)
    (List.replicate 16383 (receiveMoves (halfDatagram 2 0))).flatten, hid, hflag, ?_⟩
  rw [hempty, overloadedRun, OutputMachine.outputs_append, hopen.2, hopen.1, List.nil_append,
    OutputMachine.outputs_append, hfill, OutputMachine.outputs_append, hlose.2, hlose.1, hworker]
  rfl

/-- A frame that lost a packet to the full queue is reported without queue pressure. -/
theorem not_dropsAttributed :
    ¬ ∀ clock moves, DropsAttributed (machine.outputs (init clock) moves) := by
  intro h
  obtain ⟨r, filling, hid, hflag, houtputs⟩ := overloadedRun_outputs
  have hpressure := h 0 overloadedRun (.accepted (halfPacket 1 0) :: (filling ++
    [.rejected (halfPacket 1 1), .handed (halfPacket 1 0)])) r [] (by rw [houtputs]; simp)
    ⟨[.accepted (halfPacket 1 0)], _, halfPacket 1 0, halfPacket 1 1, rfl, List.mem_cons_self,
      hid.symm, by simp, hid.symm⟩
  rw [hflag] at hpressure
  cases hpressure

end ReceiverState

end HvFrame
