import HvFrame.ReportLabels
import HvFrame.ShutdownProgress

/-!
# When a live frame is reported at the latest

A fully received frame waits for the next poll of the timers, any other frame at most for the
end of its lifetime as well, or for 30 ms in which no packet of it is handed over. A poll is never
further away than 5 ms and a dozen moves of the worker, whatever packets keep coming in.
-/

namespace HvFrame

section Journals

variable {maxFrameSize payloadStride : ℕ} {frameId : UInt32} {calls : List TimedCall}

theorem journal_grows (calls : List TimedCall) (c : TimedCall) :
    journal maxFrameSize payloadStride frameId (calls ++ [c]) = [] ∨
      journal maxFrameSize payloadStride frameId (calls ++ [c]) =
        journal maxFrameSize payloadStride frameId calls ++ arrivals frameId [c] := by
  rw [journal_concat]
  rcases journalStep_cases (journal maxFrameSize payloadStride frameId calls) c with
    ⟨a, ha, he⟩ | ⟨hnone, he | he | ⟨e, state, drops, -, he⟩⟩
  · exact Or.inr (by rw [he, arrivals, List.filterMap_cons_some ha, List.filterMap_nil])
  · exact Or.inr (by rw [he, arrivals, List.filterMap_cons_none hnone, List.filterMap_nil,
      List.append_nil])
  · exact Or.inl (by rw [he])
  · exact Or.inl (by rw [he])

theorem storedPacket_isSome_append {count : UInt16} {ps : List RxPacket} {i : ℕ}
    (h : (storedPacket maxFrameSize payloadStride count ps i).isSome = true)
    (more : List RxPacket) :
    (storedPacket maxFrameSize payloadStride count (ps ++ more) i).isSome = true := by
  rw [storedPacket_isSome_iff] at h ⊢
  obtain ⟨hi, p, hp, hrest⟩ := h
  exact ⟨hi, p, List.mem_append_left _ hp, hrest⟩

/-- What more arrivals leave of an entry. -/
structure FrameEntry.ExtendedBy (e : FrameEntry) (more : List Arrival) (e' : FrameEntry) :
    Prop where
  firstPacketTime : e'.firstPacketTime = e.firstPacketTime
  full : e.fullyReceived = true → e'.fullyReceived = true
  same : more = [] → e' = e

theorem entryOf_append {j more : List Arrival} {e e' : FrameEntry}
    (he : entryOf maxFrameSize payloadStride j = some e)
    (he' : entryOf maxFrameSize payloadStride (j ++ more) = some e') : e.ExtendedBy more e' := by
  have hsame : more = [] → e' = e := by
    rintro rfl
    rw [List.append_nil, he] at he'
    exact (Option.some.inj he').symm
  have hstored := fullyReceived_eq_fullyStored he
  have hstored' := fullyReceived_eq_fullyStored he'
  cases j with
  | nil => simp at he
  | cons a as =>
    obtain rfl := Option.some.inj he
    obtain rfl := Option.some.inj he'
    refine ⟨rfl, fun hfull => ?_, hsame⟩
    rw [hstored] at hfull
    rw [hstored']
    simp only [fullyStored, List.cons_append, List.all_eq_true, List.mem_range] at hfull ⊢
    intro i hi
    have hstored := storedPacket_isSome_append (hfull i hi) (more.map Arrival.pkt)
    rwa [← List.map_append] at hstored

theorem times_mem {e : FrameEntry}
    (he : entryOf maxFrameSize payloadStride (journal maxFrameSize payloadStride frameId calls) =
      some e) :
    e.firstPacketTime ∈ (arrivals frameId calls).map Arrival.now ∧
      e.lastUpdate ∈ (arrivals frameId calls).map Arrival.now := by
  have hnow : ∀ a ∈ journal maxFrameSize payloadStride frameId calls,
      a.now ∈ (arrivals frameId calls).map Arrival.now := fun a ha =>
    List.mem_map_of_mem (mem_journal ha)
  cases hj : journal maxFrameSize payloadStride frameId calls with
  | nil => simp [hj] at he
  | cons a as =>
    rw [hj] at he hnow
    obtain rfl := Option.some.inj he
    exact ⟨hnow _ List.mem_cons_self, hnow _ (List.getLast_mem (List.cons_ne_nil a as))⟩

end Journals

namespace WorkerPosition

/-- A bound on the moves of the worker before it has polled the timers or come to its end, when
5 ms have passed since the last poll. -/
def toPoll : WorkerPosition → ℕ
  | .testShutdown => 11
  | .testEmpty => 10
  | .startGrace => 9
  | .start => 8
  | .checkGrace => 8
  | .popUntil => 7
  | .waiting => 6
  | .popped _ => 5
  | .sampled .. => 4
  | .testTimer => 3
  | .timerDue _ => 2
  | .pollTimers .. => 1
  | .flushAll => 1
  | .ended => 0

end WorkerPosition

namespace ReceiverState

variable {clock : ℤ} {moves : List ReceiverMove} {frameId : UInt32} {s : ReceiverState}

/-- A state of some run. -/
def Reached (s : ReceiverState) : Prop := ∃ clock moves, s = machine.state (init clock) moves

theorem Reached.step (h : Reached s) (a : ReceiverMove) : Reached (s.step a).1 := by
  obtain ⟨clock, moves, rfl⟩ := h
  exact ⟨clock, moves ++ [a], by rw [OutputMachine.state_append]; rfl⟩

theorem Reached.run (h : Reached s) (moves : List ReceiverMove) :
    Reached (machine.state s moves) := by
  obtain ⟨clock, before, rfl⟩ := h
  exact ⟨clock, before ++ moves, by rw [OutputMachine.state_append]⟩

theorem managerCall_cases (s : ReceiverState) (a : ReceiverMove) :
    s.managerCall a = [] ∨ ∃ c, s.managerCall a = [c] := by
  cases a with
  | worker =>
    cases hw : s.worker with
    | sampled pkt queueNow => exact Or.inr ⟨_, by simp only [managerCall, hw]; rfl⟩
    | pollTimers now drops => exact Or.inr ⟨_, by simp only [managerCall, hw]; rfl⟩
    | flushAll => exact Or.inr ⟨_, by simp only [managerCall, hw]; rfl⟩
    | _ => exact Or.inl (by simp only [managerCall, hw])
  | _ => exact Or.inl rfl

/-- A step that leaves a frame live extends it by what it hands over. -/
theorem Reached.entry_step (h : Reached s) {a : ReceiverMove} {e e' : FrameEntry}
    (he : s.manager.frames.find? frameId = some e)
    (he' : (s.step a).1.manager.frames.find? frameId = some e') :
    e.ExtendedBy (arrivals frameId (s.managerCall a)) e' := by
  obtain ⟨clock, moves, rfl⟩ := h
  rw [(step_manager _ a).1] at he'
  rw [(manager_run clock moves).1] at he he'
  rcases managerCall_cases (machine.state (init clock) moves) a with hcall | ⟨c, hcall⟩
  · rw [hcall, OutputMachine.state_nil, he] at he'
    obtain rfl := Option.some.inj he'
    exact ⟨rfl, id, fun _ => rfl⟩
  · rw [hcall, ← OutputMachine.state_append,
      FrameReassemblerManager.find?_eq_entryOf] at he'
    rw [FrameReassemblerManager.find?_eq_entryOf] at he
    rcases journal_grows (managerCalls clock moves) c with hgone | hmore
    · rw [hgone] at he'
      cases he'
    · rw [hmore] at he'
      rw [hcall]
      exact entryOf_append he he'

theorem times_of_live {e : FrameEntry}
    (he : (machine.state (init clock) moves).manager.frames.find? frameId = some e) :
    e.firstPacketTime ∈ (arrivals frameId (managerCalls clock moves)).map Arrival.now ∧
      e.lastUpdate ∈ (arrivals frameId (managerCalls clock moves)).map Arrival.now := by
  rw [(manager_run clock moves).1, FrameReassemblerManager.find?_eq_entryOf] at he
  exact times_mem he

theorem Reached.times_le (h : Reached s) {e : FrameEntry}
    (he : s.manager.frames.find? frameId = some e) :
    e.firstPacketTime ≤ s.clock ∧ e.lastUpdate ≤ s.clock := by
  obtain ⟨clock, moves, rfl⟩ := h
  have hclocks := (List.pairwise_append.mp (usedInOrder_run clock moves).1.clocks).2.2
  have hle : ∀ now ∈ (arrivals frameId (managerCalls clock moves)).map Arrival.now,
      now ≤ (machine.state (init clock) moves).clock := by
    intro now hnow
    obtain ⟨a, ha, rfl⟩ := List.mem_map.mp hnow
    have hcall : a.now ∈ (managerCalls clock moves).map TimedCall.now :=
      List.mem_map.mpr ⟨_, (mem_arrivals_iff.mp ha).1, rfl⟩
    exact hclocks _ (List.mem_cons_of_mem _ hcall) _ List.mem_cons_self
  obtain ⟨hfirst, hlast⟩ := times_of_live he
  exact ⟨hle _ hfirst, hle _ hlast⟩

theorem Reached.lastTimer_le (h : Reached s) {e : FrameEntry}
    (he : s.manager.frames.find? frameId = some e) :
    s.worker ≠ .start ∧ s.lastTimer ≤ s.clock := by
  obtain ⟨clock, moves, rfl⟩ := h
  obtain ⟨-, hpaced⟩ := usedInOrder_run clock moves
  have hstarted : (machine.state (init clock) moves).worker ≠ .start := by
    intro hw
    rw [(manager_run clock moves).1, hpaced.unstarted hw] at he
    cases he
  exact ⟨hstarted, (hpaced.paced hstarted).2⟩

/-- The step reports the frame, or the worker comes to its end with it. -/
def Settles (frameId : UInt32) (s : ReceiverState) (a : ReceiverMove) : Prop :=
  (∃ r, .managed (.onFrameDone r) ∈ (s.step a).2 ∧ r.frameId = frameId) ∨
    (s.step a).1.worker = .ended

def Settled (frameId : UInt32) (s : ReceiverState) (moves : List ReceiverMove) : Prop :=
  (∃ r, .managed (.onFrameDone r) ∈ machine.outputs s moves ∧ r.frameId = frameId) ∨
    (machine.state s moves).worker = .ended

theorem Settled.append (h : Settled frameId s moves) (later : List ReceiverMove) :
    Settled frameId s (moves ++ later) := by
  rcases h with ⟨r, hr, hid⟩ | hended
  · refine Or.inl ⟨r, ?_, hid⟩
    rw [OutputMachine.outputs_append]
    exact List.mem_append_left _ hr
  · refine Or.inr ?_
    rw [OutputMachine.state_append]
    exact machine.state_invariant (I := fun s => s.worker = .ended) hended
      (fun s a h => step_workerEnded h a) later

theorem settled_of_event {before after : List ReceiverMove} {a : ReceiverMove}
    (h : Settles frameId (machine.state s before) a) :
    Settled frameId s (before ++ a :: after) := by
  have hstep : Settled frameId s (before ++ [a]) := by
    rcases h with ⟨r, hr, hid⟩ | hended
    · refine Or.inl ⟨r, ?_, hid⟩
      rw [OutputMachine.outputs_append]
      exact List.mem_append_right _ (by simpa using hr)
    · refine Or.inr ?_
      rw [OutputMachine.state_append]
      exact hended
  have hrest := hstep.append after
  rwa [List.append_assoc, List.singleton_append] at hrest

theorem Settled.of_state {later : List ReceiverMove}
    (h : Settled frameId (machine.state s moves) later) : Settled frameId s (moves ++ later) := by
  rcases h with ⟨r, hr, hid⟩ | hended
  · refine Or.inl ⟨r, ?_, hid⟩
    rw [OutputMachine.outputs_append]
    exact List.mem_append_right _ hr
  · refine Or.inr ?_
    rw [OutputMachine.state_append]
    exact hended

/-- A live frame stays live unless the step settles it. -/
theorem Reached.settles_or_live (h : Reached s) {e : FrameEntry}
    (he : s.manager.frames.find? frameId = some e) (a : ReceiverMove) :
    Settles frameId s a ∨ ∃ e', (s.step a).1.manager.frames.find? frameId = some e' ∧
      e.ExtendedBy (arrivals frameId (s.managerCall a)) e' := by
  cases hlive : (s.step a).1.manager.frames.find? frameId with
  | some e' => exact Or.inr ⟨e', rfl, h.entry_step he hlive⟩
  | none =>
    refine Or.inl ?_
    by_cases ha : a = .worker
    · subst ha
      rw [ReceiverState.step] at hlive
      rcases s.workerStep_cases with ⟨pkt, queueNow, -, hs⟩ | ⟨now, drops, hw, hs⟩ | ⟨-, hs⟩ |
        ⟨-, hs, -⟩
      · rw [hs, FrameReassemblerManager.pushPacket_find?] at hlive
        split_ifs at hlive with hid
        rw [he] at hlive
        cases hlive
      · rw [find?_of_poll hw, he] at hlive
        cases hverdict : e.timerVerdict s.clock with
        | none => simp [Option.filter_some, hverdict] at hlive
        | some state =>
          obtain ⟨clock, moves, rfl⟩ := h
          exact Or.inl ⟨_, reported_of_verdict hw he hverdict, manager_ids he⟩
      · exact Or.inr (by rw [ReceiverState.step, hs])
      · rw [hs, he] at hlive
        cases hlive
    · rw [(step_of_ne_worker ha s).2.1, he] at hlive
      cases hlive

theorem Reached.settles_of_verdict (h : Reached s) {e : FrameEntry} {now : ℤ} {drops : ℕ}
    (he : s.manager.frames.find? frameId = some e) (hw : s.worker = .pollTimers now drops)
    (hdue : e.fullyReceived = true ∨ e.timedOut s.clock = true) : Settles frameId s .worker := by
  have hverdict : e.timerVerdict s.clock = some .complete := by
    cases hfull : e.fullyReceived with
    | true => simp [FrameEntry.timerVerdict, hfull]
    | false =>
      have htime : e.timedOut s.clock = true := by simpa [hfull] using hdue
      simp [FrameEntry.timerVerdict, hfull, htime]
  obtain ⟨clock, moves, rfl⟩ := h
  exact Or.inl ⟨_, reported_of_verdict hw he hverdict, manager_ids he⟩

theorem step_lastTimer (hstarted : s.worker ≠ .start) {a : ReceiverMove}
    (hpoll : a = .worker → ∀ now drops, s.worker ≠ .pollTimers now drops) :
    (s.step a).1.lastTimer = s.lastTimer := by
  by_cases ha : a = .worker
  · subst ha
    rw [step]
    cases hw : s.worker with
    | start => exact absurd hw hstarted
    | pollTimers now drops => exact absurd hw (hpoll rfl now drops)
    | popUntil =>
      rcases s.popUntil_cases (Or.inl hw) with he | he | ⟨pkt, rest, -, he⟩ <;> rw [he]
    | waiting =>
      rcases s.popUntil_cases (Or.inr hw) with he | he | ⟨pkt, rest, -, he⟩ <;> rw [he]
    | _ => simp only [workerStep, hw]
  · exact (step_outside ha s).2.2.1

/-- When 5 ms have passed since the last poll, every move of the worker brings the next closer. -/
theorem workerStep_toPoll (hdue : 5 * 1000000 ≤ s.clock - s.lastTimer)
    (hpoll : ∀ now drops, s.worker ≠ .pollTimers now drops) (hended : s.worker ≠ .ended) :
    s.workerStep.1.worker.toPoll < s.worker.toPoll := by
  cases hw : s.worker with
  | ended => exact absurd hw hended
  | pollTimers now drops => exact absurd hw (hpoll now drops)
  | popUntil =>
    rcases s.popUntil_cases (Or.inl hw) with he | he | ⟨pkt, rest, -, he⟩ <;>
      simp [he, WorkerPosition.toPoll]
  | waiting =>
    have hleaves : s.workerStep = (s.afterPop (.leaves s.queue.tryPop.1 s.queue.tryPop.2), []) := by
      simp only [workerStep, hw, PacketQueue.popUntilWoken]
    rw [hleaves]
    cases s.queue.tryPop.2 <;> simp [afterPop, WorkerPosition.toPoll]
  | testTimer =>
    simp only [workerStep, hw, if_pos hdue]
    simp [WorkerPosition.toPoll]
  | testShutdown =>
    simp only [workerStep, hw]
    split_ifs <;> simp [WorkerPosition.toPoll]
  | testEmpty =>
    simp only [workerStep, hw]
    split_ifs <;> simp [WorkerPosition.toPoll]
  | checkGrace =>
    simp only [workerStep, hw]
    split_ifs <;> simp [WorkerPosition.toPoll]
  | _ => simp [workerStep, hw, WorkerPosition.toPoll]

/-- A condition under which a poll of the timers is an event, and which only an event ends. -/
structure AwaitsPoll (P : ReceiverState → Prop) (E : ReceiverState → ReceiverMove → Prop) :
    Prop where
  started : ∀ s, P s → s.worker ≠ .start ∧ s.lastTimer ≤ s.clock
  polled : ∀ s now drops, P s → s.worker = .pollTimers now drops → E s .worker
  ended : ∀ s, P s → s.worker = .ended → E s .worker
  kept : ∀ s a, P s → E s a ∨ P (s.step a).1

section Awaits

variable {P : ReceiverState → Prop} {E : ReceiverState → ReceiverMove → Prop}

theorem AwaitsPoll.lastTimer (h : AwaitsPoll P E) (hs : P s) {a : ReceiverMove}
    (hevent : ¬ E s a) : (s.step a).1.lastTimer = s.lastTimer := by
  refine step_lastTimer (h.started s hs).1 (fun ha now drops hw => ?_)
  subst ha
  exact hevent (h.polled s now drops hs hw)

theorem AwaitsPoll.overdue (h : AwaitsPoll P E) (hs : P s) {waiting : List ReceiverMove}
    (hwait : 5 * 1000000 ≤ (waiting.map ReceiverMove.elapsed).sum) :
    (P (machine.state s waiting) ∧
        5 * 1000000 ≤ (machine.state s waiting).clock - (machine.state s waiting).lastTimer) ∨
      ∃ before a after, waiting = before ++ a :: after ∧ E (machine.state s before) a := by
  have hstep : ∀ t a, P t ∧ t.lastTimer ≤ s.clock → E t a ∨
      (P (t.step a).1 ∧ (t.step a).1.lastTimer ≤ s.clock) := by
    rintro t a ⟨ht, hlast⟩
    by_cases hevent : E t a
    · exact Or.inl hevent
    · refine Or.inr ⟨(h.kept t a ht).resolve_left hevent, ?_⟩
      rw [h.lastTimer ht hevent]
      exact hlast
  rcases machine.kept_or_event hstep ⟨hs, (h.started s hs).2⟩ waiting with
    ⟨hkept, hlast⟩ | ⟨before, a, after, rfl, -, hevent⟩
  · have hclock := s.state_clock waiting
    exact Or.inl ⟨hkept, by omega⟩
  · exact Or.inr ⟨before, a, after, rfl, hevent⟩

theorem AwaitsPoll.event_of_overdue (h : AwaitsPoll P E) (hs : P s)
    (hdue : 5 * 1000000 ≤ s.clock - s.lastTimer) {polling : List ReceiverMove}
    (hmoves : 11 < polling.countP ReceiverMove.isWorker) :
    ∃ before a after, polling = before ++ a :: after ∧ E (machine.state s before) a := by
  have hle : s.worker.toPoll ≤ 11 := by cases s.worker <;> simp [WorkerPosition.toPoll]
  have hstep : ∀ t a, P t ∧ 5 * 1000000 ≤ t.clock - t.lastTimer → E t a ∨
      ((P (t.step a).1 ∧ 5 * 1000000 ≤ (t.step a).1.clock - (t.step a).1.lastTimer) ∧
        (t.step a).1.worker.toPoll ≤ t.worker.toPoll ∧
        (a.isWorker = true → (t.step a).1.worker.toPoll < t.worker.toPoll)) := by
    rintro t a ⟨ht, hdue⟩
    by_cases hevent : E t a
    · exact Or.inl hevent
    · have hclock := t.step_clock a
      have hlast := h.lastTimer ht hevent
      refine Or.inr ⟨⟨(h.kept t a ht).resolve_left hevent, by omega⟩, ?_⟩
      by_cases ha : a = .worker
      · subst ha
        have hlt := workerStep_toPoll hdue
          (fun now drops hw => hevent (h.polled t now drops ht hw))
          (fun hw => hevent (h.ended t ht hw))
        exact ⟨hlt.le, fun _ => hlt⟩
      · rw [(step_of_ne_worker ha t).1]
        refine ⟨le_rfl, fun hhelp => ?_⟩
        cases a <;> first | exact absurd rfl ha | cases hhelp
  obtain ⟨before, a, after, hsplit, -, hevent⟩ := machine.exists_event
    (fun t => t.worker.toPoll) ReceiverMove.isWorker hstep ⟨hs, hdue⟩ (hle.trans_lt hmoves)
  exact ⟨before, a, after, hsplit, hevent⟩

/-- 5 ms and a dozen moves of the worker bring an event. -/
theorem AwaitsPoll.event (h : AwaitsPoll P E) (hs : P s) {waiting polling : List ReceiverMove}
    (hwait : 5 * 1000000 ≤ (waiting.map ReceiverMove.elapsed).sum)
    (hmoves : 11 < polling.countP ReceiverMove.isWorker) :
    ∃ before a after, waiting ++ polling = before ++ a :: after ∧ E (machine.state s before) a := by
  rcases h.overdue hs hwait with ⟨hkept, hdue⟩ | ⟨before, a, after, rfl, hevent⟩
  · obtain ⟨before, a, after, rfl, hevent⟩ := h.event_of_overdue hkept hdue hmoves
    refine ⟨waiting ++ before, a, after, by rw [List.append_assoc], ?_⟩
    rw [OutputMachine.state_append]
    exact hevent
  · exact ⟨before, a, after ++ polling, by simp, hevent⟩

end Awaits

/-- The next poll of the timers reports the frame, whatever comes in until then. -/
def Ripe (frameId : UInt32) (s : ReceiverState) : Prop :=
  Reached s ∧ ∃ e, s.manager.frames.find? frameId = some e ∧
    (e.fullyReceived = true ∨ maxFrameLifetime < s.clock - e.firstPacketTime)

theorem awaitsPoll_ripe (frameId : UInt32) : AwaitsPoll (Ripe frameId) (Settles frameId) where
  started := fun _ ⟨h, _, he, _⟩ => h.lastTimer_le he
  polled := by
    rintro s now drops ⟨h, e, he, hripe⟩ hw
    refine h.settles_of_verdict he hw (hripe.imp_right (fun hlife => ?_))
    simp [FrameEntry.timedOut, hlife]
  ended := fun _ _ hw => Or.inr (step_workerEnded hw _)
  kept := by
    rintro s a ⟨h, e, he, hripe⟩
    refine (h.settles_or_live he a).imp_right (fun ⟨e', he', hext⟩ => ⟨h.step a, e', he', ?_⟩)
    refine hripe.imp hext.full (fun hlife => ?_)
    rw [hext.firstPacketTime, s.step_clock a]
    omega

def Hands (frameId : UInt32) (s : ReceiverState) (a : ReceiverMove) : Prop :=
  arrivals frameId (s.managerCall a) ≠ []

/-- The next poll of the timers reports the frame unless a packet of it comes before. -/
def Idle (frameId : UInt32) (s : ReceiverState) : Prop :=
  Reached s ∧ ∃ e, s.manager.frames.find? frameId = some e ∧
    frameIdleTimeout < s.clock - e.lastUpdate

theorem Reached.unchanged (h : Reached s) {e : FrameEntry}
    (he : s.manager.frames.find? frameId = some e) (a : ReceiverMove) :
    (Settles frameId s a ∨ Hands frameId s a) ∨
      (s.step a).1.manager.frames.find? frameId = some e := by
  rcases h.settles_or_live he a with hsettles | ⟨e', he', hext⟩
  · exact Or.inl (Or.inl hsettles)
  · by_cases hhands : Hands frameId s a
    · exact Or.inl (Or.inr hhands)
    · rw [hext.same (not_not.mp hhands)] at he'
      exact Or.inr he'

theorem awaitsPoll_idle (frameId : UInt32) :
    AwaitsPoll (Idle frameId) (fun s a => Settles frameId s a ∨ Hands frameId s a) where
  started := fun _ ⟨h, _, he, _⟩ => h.lastTimer_le he
  polled := by
    rintro s now drops ⟨h, e, he, hidle⟩ hw
    refine Or.inl (h.settles_of_verdict he hw (Or.inr ?_))
    simp [FrameEntry.timedOut, hidle]
  ended := fun _ _ hw => Or.inl (Or.inr (step_workerEnded hw _))
  kept := by
    rintro s a ⟨h, e, he, hidle⟩
    refine (h.unchanged he a).imp_right (fun he' => ⟨h.step a, e, he', ?_⟩)
    rw [s.step_clock a]
    omega

theorem ripe_or_settled (h : Reached s) {e : FrameEntry}
    (he : s.manager.frames.find? frameId = some e) {aging : List ReceiverMove}
    (hage : e.fullyReceived = true ∨ maxFrameLifetime < (aging.map ReceiverMove.elapsed).sum) :
    Ripe frameId (machine.state s aging) ∨ Settled frameId s aging := by
  have hkept := machine.kept_or_event (E := Settles frameId)
    (I := fun t => Reached t ∧ ∃ e', t.manager.frames.find? frameId = some e' ∧
      e'.firstPacketTime = e.firstPacketTime ∧
        (e.fullyReceived = true → e'.fullyReceived = true))
    (fun t a ⟨ht, e', he', htime, hfull⟩ =>
      (ht.settles_or_live he' a).imp_right (fun ⟨e'', he'', hext⟩ =>
        ⟨ht.step a, e'', he'', hext.firstPacketTime.trans htime, fun hf => hext.full (hfull hf)⟩))
    ⟨h, e, he, rfl, id⟩ aging
  rcases hkept with ⟨hreached, e', he', htime, hfull⟩ | ⟨before, a, after, rfl, -, hsettles⟩
  · refine Or.inl ⟨hreached, e', he', hage.imp hfull (fun hlife => ?_)⟩
    have hfirst := (h.times_le he).1
    rw [htime, state_clock]
    omega
  · exact Or.inr (settled_of_event hsettles)

theorem idle_or_event (h : Reached s) {e : FrameEntry}
    (he : s.manager.frames.find? frameId = some e) {aging : List ReceiverMove}
    (hage : frameIdleTimeout < (aging.map ReceiverMove.elapsed).sum) :
    Idle frameId (machine.state s aging) ∨ ∃ before a after, aging = before ++ a :: after ∧
      (Settles frameId (machine.state s before) a ∨ Hands frameId (machine.state s before) a) := by
  rcases machine.kept_or_event (E := fun t a => Settles frameId t a ∨ Hands frameId t a)
      (I := fun t => Reached t ∧ t.manager.frames.find? frameId = some e)
      (fun t a ⟨ht, he'⟩ => (ht.unchanged he' a).imp_right (fun hnext => ⟨ht.step a, hnext⟩))
      ⟨h, he⟩ aging with ⟨hreached, he'⟩ | ⟨before, a, after, hsplit, -, hevent⟩
  · have hlast := (h.times_le he).2
    refine Or.inl ⟨hreached, e, he', ?_⟩
    rw [state_clock]
    omega
  · exact Or.inr ⟨before, a, after, hsplit, hevent⟩

theorem settled_of_silent
    (hsilent : arrivals frameId (machine.callsTo managerCall s moves) = [])
    (h : ∃ before a after, moves = before ++ a :: after ∧
      (Settles frameId (machine.state s before) a ∨ Hands frameId (machine.state s before) a)) :
    Settled frameId s moves := by
  obtain ⟨before, a, after, rfl, hsettles | hhands⟩ := h
  · exact settled_of_event hsettles
  · rw [machine.callsTo_append, OutputMachine.callsTo, arrivals_append, arrivals_append,
      List.append_eq_nil_iff, List.append_eq_nil_iff] at hsilent
    exact absurd hsilent.2.1 hhands

theorem Ripe.settled (h : Ripe frameId s) {waiting polling : List ReceiverMove}
    (hwait : 5 * 1000000 ≤ (waiting.map ReceiverMove.elapsed).sum)
    (hmoves : 11 < polling.countP ReceiverMove.isWorker) :
    Settled frameId s (waiting ++ polling) := by
  obtain ⟨before, a, after, hsplit, hsettles⟩ := (awaitsPoll_ripe frameId).event h hwait hmoves
  rw [hsplit]
  exact settled_of_event hsettles

/-- A frame that is handed nothing for 30 ms is settled soon after. -/
theorem Reached.settled_of_silent (h : Reached s) {e : FrameEntry}
    (hlive : s.manager.frames.find? frameId = some e) {aging waiting polling : List ReceiverMove}
    (hage : frameIdleTimeout < (aging.map ReceiverMove.elapsed).sum)
    (hsilent : arrivals frameId
      (machine.callsTo managerCall s (aging ++ waiting ++ polling)) = [])
    (hwait : 5 * 1000000 ≤ (waiting.map ReceiverMove.elapsed).sum)
    (hmoves : 11 < polling.countP ReceiverMove.isWorker) :
    Settled frameId s (aging ++ waiting ++ polling) := by
  refine ReceiverState.settled_of_silent hsilent ?_
  rw [List.append_assoc]
  rcases idle_or_event h hlive hage with hidle | ⟨before, a, after, rfl, hevent⟩
  · obtain ⟨before, a, after, hsplit, hevent⟩ :=
      (awaitsPoll_idle frameId).event hidle hwait hmoves
    refine ⟨aging ++ before, a, after, by rw [hsplit, List.append_assoc], ?_⟩
    rw [OutputMachine.state_append]
    exact hevent
  · exact ⟨before, a, after ++ (waiting ++ polling), by simp, hevent⟩

/-- A live frame that is fully received, whose lifetime passes, or of which no packet is handed
over for 30 ms, is reported once 5 ms and a dozen moves of the worker have passed as well, or the
worker has come to its end. -/
theorem frame_reported_in_time {e : FrameEntry}
    (hlive : (machine.state (init clock) moves).manager.frames.find? frameId = some e)
    {aging waiting polling : List ReceiverMove}
    (hage : e.fullyReceived = true ∨ maxFrameLifetime < (aging.map ReceiverMove.elapsed).sum ∨
      (frameIdleTimeout < (aging.map ReceiverMove.elapsed).sum ∧
        arrivals frameId (machine.callsTo managerCall (machine.state (init clock) moves)
          (aging ++ waiting ++ polling)) = []))
    (hwait : 5 * 1000000 ≤ (waiting.map ReceiverMove.elapsed).sum)
    (hmoves : 11 < polling.countP ReceiverMove.isWorker) :
    Settled frameId (machine.state (init clock) moves) (aging ++ waiting ++ polling) := by
  have hreached : Reached (machine.state (init clock) moves) := ⟨clock, moves, rfl⟩
  rw [← or_assoc] at hage
  rcases hage with hage | ⟨hidle, hsilent⟩
  · rw [List.append_assoc]
    rcases ripe_or_settled hreached hlive hage with hripe | hsettled
    · exact (hripe.settled hwait hmoves).of_state
    · exact hsettled.append _
  · exact hreached.settled_of_silent hlive hidle hsilent hwait hmoves

def halfReceived : List ReceiverMove :=
  receiveMoves (halfDatagram 1 0) ++ [.worker, .worker, .worker, .worker]

/-- The frame that never gets its other half is reported all the same. -/
theorem frame_reported_in_time_half :
    Settled 1 (machine.state (init 0) halfReceived)
      ([.advance 30000001] ++ [.advance 5000000] ++ List.replicate 12 .worker) := by
  have hlive : ∃ e, (machine.state (init 0) halfReceived).manager.frames.find? 1 = some e := by
    rw [halfReceived, OutputMachine.state_append, show init 0 = backlogged [] 0 from rfl,
      (receiveMoves_accepted (rxDatagram_halfDatagram 1 0) [] 0 (by decide)).1]
    exact ⟨_, rfl⟩
  obtain ⟨e, he⟩ := hlive
  exact frame_reported_in_time he (Or.inr (Or.inr ⟨by decide, by decide +kernel⟩))
    (by decide) (by decide)

end ReceiverState

end HvFrame
