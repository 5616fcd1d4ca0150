import HvFrame.FrameAccounts
import HvFrame.ReceiverRefinement
import HvFrame.ReportLabels
import HvFrame.ShutdownFlushes

/-!
# What the receiver makes of the frames it opens

The worker never calls `forceEmitAll` or `pollFlush`, and the verdict of `pollTimers` is
always `COMPLETE`. So every frame that is opened is reported as complete, is still live, or
is taken out by the final flush, and nothing is ever counted as partial.
-/

namespace HvFrame

namespace ManagerOutput

/-- The call of `write_frame_to_file` that an output leads to, through the callback of the worker
or directly. -/
def writeCall : ManagerOutput → WriteCall
  | .onFrameDone r => ⟨r.frameData, r.frameSize, r.state = .partialFrame⟩
  | .writeFrameToFile frame frameSize isPartial => ⟨frame, frameSize, isPartial⟩

def IsFullReport (out : ManagerOutput) : Prop :=
  ∃ r, out = .onFrameDone r ∧ r.state = .complete

def IsPartialWrite (out : ManagerOutput) : Prop :=
  ∃ frame frameSize, out = .writeFrameToFile frame frameSize true

theorem IsFullReport.isPartial {out : ManagerOutput} (h : out.IsFullReport) :
    out.writeCall.isPartial = false := by
  obtain ⟨r, rfl, hstate⟩ := h
  simp [writeCall, hstate]

theorem IsPartialWrite.isPartial {out : ManagerOutput} (h : out.IsPartialWrite) :
    out.writeCall.isPartial = true := by
  obtain ⟨frame, frameSize, rfl⟩ := h
  rfl

end ManagerOutput

def ManagerCall.byWorker : ManagerCall → Bool
  | .pushPacket .. => true
  | .pollTimers _ => true
  | .flushAll => true
  | _ => false

theorem ManagerCall.byWorker_of_inLoop {c : ManagerCall} (h : c.inLoop = true) :
    c.byWorker = true := by
  cases c <;> first | rfl | cases h

/-- Both branches of `pollTimers` that emit an entry emit it as complete. -/
theorem FrameEntry.timerVerdict_complete {e : FrameEntry} {now : ℤ} {state : FrameState}
    (h : e.timerVerdict now = some state) : state = .complete := by
  cases hfull : e.fullyReceived with
  | true =>
    simp only [timerVerdict, hfull, if_true, Option.some.injEq] at h
    exact h.symm
  | false =>
    cases htime : e.timedOut now with
    | true =>
      simp only [timerVerdict, hfull, htime, Bool.false_eq_true, if_false, Bool.not_true,
        Bool.not_false, if_true, Option.some.injEq] at h
      exact h.symm
    | false => simp [timerVerdict, hfull, htime] at h

namespace FrameReassemblerManager

variable {m : FrameReassemblerManager} {c : TimedCall} {calls : List TimedCall}

theorem callReports_complete (h : c.call.byWorker = true) {d : FrameEntry × FrameState}
    (hd : d ∈ (m.callReports c).1) : d.2 = .complete := by
  obtain ⟨now, call⟩ := c
  cases call with
  | pollTimers drops =>
    obtain ⟨kv, -, hdue⟩ := List.mem_filterMap.mp hd
    obtain ⟨state, hstate, rfl⟩ := Option.map_eq_some_iff.mp hdue
    exact FrameEntry.timerVerdict_complete hstate
  | pushPacket pkt drops => cases hd
  | flushAll => cases hd
  | _ => cases h

theorem step_stats (h : c.call.byWorker = true) :
    (m.step c).1.stats =
      { total := m.stats.total + ((m.step c).2.filterMap ManagerOutput.report).length
        complete := m.stats.complete + ((m.step c).2.filterMap ManagerOutput.report).length
        partialFrames := m.stats.partialFrames } := by
  obtain ⟨hstats, hreports⟩ := m.step_reports c
  have hpartial : (m.callReports c).1.countP (fun d => d.2 = .partialFrame) = 0 := by
    refine List.countP_eq_zero.mpr (fun d hd => ?_)
    rw [callReports_complete h hd]
    decide
  have hsplit := (m.callReports c).1.length_eq_countP_add_countP (fun d => d.2 = .partialFrame)
  rw [hstats, hreports, foldl_count, hpartial, List.length_map, Nat.add_zero]
  simp only [decide_eq_true_eq, decide_not] at hsplit ⊢
  rw [hsplit, hpartial, Nat.zero_add]

/-- What the worker's calls count is what they report. -/
theorem state_stats (h : ∀ c ∈ calls, c.call.byWorker = true) (m : FrameReassemblerManager) :
    (machine.state m calls).stats =
      { total := m.stats.total + ((machine.outputs m calls).filterMap ManagerOutput.report).length
        complete :=
          m.stats.complete + ((machine.outputs m calls).filterMap ManagerOutput.report).length
        partialFrames := m.stats.partialFrames } := by
  induction calls generalizing m with
  | nil => rfl
  | cons c calls ih =>
    have hnow := step_stats (m := m) (h c List.mem_cons_self)
    have hlater := ih (fun c' hc' => h c' (List.mem_cons_of_mem _ hc')) (m.step c).1
    rw [OutputMachine.state_cons, OutputMachine.outputs_cons, machine_step, hlater, hnow,
      List.filterMap_append, List.length_append]
    simp only [Nat.add_assoc]

theorem step_fullReports (h : c.call.inLoop = true) {out : ManagerOutput}
    (hout : out ∈ (m.step c).2) : out.IsFullReport := by
  obtain ⟨now, call⟩ := c
  cases call with
  | pollTimers drops =>
    have hloop : out ∈ (m.emitLoop (fun e => e.timerVerdict now) drops).2 := hout
    rw [(m.emitLoop_reports _ drops).2] at hloop
    obtain ⟨d, hd, rfl⟩ := List.mem_map.mp hloop
    exact ⟨_, rfl, callReports_complete (c := ⟨now, .pollTimers drops⟩) rfl hd⟩
  | pushPacket pkt drops => cases hout
  | _ => cases h

theorem outputs_fullReports (h : ∀ c ∈ calls, c.call.inLoop = true)
    (m : FrameReassemblerManager) : ∀ out ∈ machine.outputs m calls, out.IsFullReport := by
  induction calls generalizing m with
  | nil => simp
  | cons c calls ih =>
    intro out hout
    rcases List.mem_append.mp hout with hout | hout
    · exact step_fullReports (h c List.mem_cons_self) hout
    · exact ih (fun c' hc' => h c' (List.mem_cons_of_mem _ hc')) _ out hout

theorem flushAll_partialWrites {out : ManagerOutput} (hout : out ∈ m.flushAll.2) :
    out.IsPartialWrite := by
  obtain ⟨kv, -, rfl⟩ := List.mem_map.mp hout
  exact ⟨_, _, rfl⟩

theorem neverFlushes_of_inLoop (h : ∀ c ∈ calls, c.call.inLoop = true)
    (maxFrameSize payloadStride : ℕ) : NeverFlushes maxFrameSize payloadStride calls := by
  rintro ⟨pre, ⟨now, call⟩⟩ hx
  obtain ⟨post, hsplit⟩ := mem_positions_iff.mp hx
  have hloop := h ⟨now, call⟩ (by rw [hsplit]; simp)
  cases call with
  | pushPacket pkt drops => rfl
  | pollTimers drops => rfl
  | _ => cases hloop

end FrameReassemblerManager

namespace ReceiverState

def reports (es : List ReceiverEvent) : List FrameResult :=
  (es.filterMap ReceiverEvent.managerOutput).filterMap ManagerOutput.report

theorem mem_reports {es : List ReceiverEvent} {r : FrameResult} :
    r ∈ reports es ↔ .managed (.onFrameDone r) ∈ es := by
  simp only [reports, List.mem_filterMap]
  constructor
  · rintro ⟨out, ⟨e, he, hmanaged⟩, hreport⟩
    cases e with
    | managed out' =>
      obtain rfl := Option.some.inj hmanaged
      cases out' with
      | onFrameDone r' =>
        obtain rfl := Option.some.inj hreport
        exact he
      | writeFrameToFile frame frameSize isPartial => cases hreport
    | _ => cases hmanaged
  · exact fun h => ⟨_, ⟨_, h, rfl⟩, rfl⟩

/-- What the manager puts out along a run is a live entry: reported as COMPLETE, or written as
what is left of a frame. -/
theorem entry_of_output {clock : ℤ} {moves : List ReceiverMove} {out : ManagerOutput}
    (h : .managed out ∈ machine.outputs (init clock) moves) :
    ∃ before later k e, moves = before ++ later ∧
      (machine.state (init clock) before).manager.frames.find? k = some e ∧
      ((∃ drops, out = .onFrameDone (e.result .complete drops)) ∨
        out = .writeFrameToFile e.reassembler.frameBuffer e.reassembler.frameSize true) := by
  obtain ⟨past, future, hsplit⟩ := List.append_of_mem h
  obtain ⟨before, a, after, past', future', rfl, -, hstep⟩ := machine.exists_step_of_outputs hsplit
  have hmem : .managed out ∈ ((machine.state (init clock) before).step a).2 := by
    rw [← machine_step, hstep]
    exact List.mem_append_right _ List.mem_cons_self
  have ha : a = .worker := by
    by_contra ha
    exact (step_of_ne_worker ha _).2.2 _ hmem
  subst ha
  cases out with
  | onFrameDone r =>
    obtain ⟨now, drops, k, e, state, -, he, hverdict, rfl⟩ := reported_of_workerStep hmem
    obtain rfl := FrameEntry.timerVerdict_complete hverdict
    exact ⟨before, _, k, e, rfl, he, Or.inl ⟨drops, rfl⟩⟩
  | writeFrameToFile frame frameSize isPartial =>
    change _ ∈ (machine.state (init clock) before).workerStep.2 at hmem
    rcases (machine.state (init clock) before).workerStep_cases with ⟨pkt, queueNow, -, he⟩ |
      ⟨now, drops, -, he⟩ | ⟨-, he⟩ | ⟨-, -, hnone⟩
    · simp [he] at hmem
    · rw [he, FrameReassemblerManager.pollTimers,
        ((machine.state (init clock) before).manager.emitLoop_reports _ drops).2] at hmem
      simp at hmem
    · rw [he, FrameReassemblerManager.flushAll] at hmem
      simp only [List.mem_cons, List.mem_map, reduceCtorEq, false_or, ReceiverEvent.managed.injEq,
        exists_eq_right, ManagerOutput.writeFrameToFile.injEq] at hmem
      obtain ⟨⟨k, e⟩, hkv, rfl, rfl, rfl⟩ := hmem
      have hlive := (OrderedMap.mem_entries_iff _ k e).mp (List.mem_of_mem_filter hkv)
      exact ⟨before, _, k, e, rfl, hlive, Or.inr rfl⟩
    · exact absurd hmem (hnone _)

/-- How the receiver disposes of the frames its calls opened. -/
structure FramesSettled (calls : List TimedCall) (es : List ReceiverEvent) (s : ReceiverState) :
    Prop where
  outputs : ∃ polled flushed, es.filterMap ReceiverEvent.managerOutput = polled ++ flushed ∧
    (∀ out ∈ polled, out.IsFullReport) ∧ (∀ out ∈ flushed, out.IsPartialWrite) ∧
      (s.worker ≠ .ended → flushed = [])
  stats : s.manager.stats = ⟨(reports es).length, (reports es).length, 0⟩
  opened : openedEntries Receiver.maxFrameSize Receiver.payloadStride calls =
    s.manager.frames.size + (reports es).length +
      flushedCount Receiver.maxFrameSize Receiver.payloadStride calls
  running : s.worker ≠ .ended →
    flushedCount Receiver.maxFrameSize Receiver.payloadStride calls = 0
  ended : s.worker = .ended → s.manager.frames = OrderedMap.empty

theorem byWorker_managerCalls (clock : ℤ) (moves : List ReceiverMove) :
    ∀ c ∈ managerCalls clock moves, c.call.byWorker = true := by
  intro c h
  have hused := (usedInOrder_run clock moves).1
  by_cases hw : (machine.state (init clock) moves).worker = .ended
  · obtain ⟨loop, t, hcalls, hloop⟩ := hused.final hw
    rw [hcalls] at h
    rcases List.mem_append.mp h with hc | hc
    · exact ManagerCall.byWorker_of_inLoop (hloop c hc)
    · rw [List.mem_singleton.mp hc]
      rfl
  · exact ManagerCall.byWorker_of_inLoop (hused.loop hw c h)

theorem framesSettled_run (clock : ℤ) (moves : List ReceiverMove) :
    FramesSettled (managerCalls clock moves) (machine.outputs (init clock) moves)
      (machine.state (init clock) moves) := by
  obtain ⟨hmanager, houtputs⟩ := manager_run clock moves
  have hused := (usedInOrder_run clock moves).1
  have hstats := FrameReassemblerManager.state_stats (byWorker_managerCalls clock moves)
    (.new Receiver.maxFrameSize Receiver.payloadStride)
  obtain ⟨hopened, -⟩ := opened_eq_live_add_counted_add_flushed Receiver.maxFrameSize
    Receiver.payloadStride (managerCalls clock moves)
  rw [← hmanager, ← houtputs] at hstats
  rw [← hmanager] at hopened
  refine ⟨?_, ?_, ?_, ?_, ?_⟩
  · rw [houtputs]
    by_cases hw : (machine.state (init clock) moves).worker = .ended
    · obtain ⟨loop, t, hcalls, hloop⟩ := hused.final hw
      rw [hcalls, OutputMachine.outputs_append]
      refine ⟨_, _, rfl, FrameReassemblerManager.outputs_fullReports hloop _, ?_,
        fun hne => absurd hw hne⟩
      intro out hout
      rw [OutputMachine.outputs_cons, OutputMachine.outputs_nil, List.append_nil] at hout
      exact FrameReassemblerManager.flushAll_partialWrites hout
    · exact ⟨_, [], (List.append_nil _).symm,
        FrameReassemblerManager.outputs_fullReports (hused.loop hw) _, by simp, fun _ => rfl⟩
  · rw [hstats]
    simp [FrameReassemblerManager.new, reports]
  · rw [hopened, hstats]
    simp [FrameReassemblerManager.new, reports]
  · intro hw
    rw [flushedCount_eq_zero_iff]
    exact FrameReassemblerManager.neverFlushes_of_inLoop (hused.loop hw) _ _
  · intro hw
    obtain ⟨loop, t, hcalls, -⟩ := hused.final hw
    rw [hmanager, hcalls, OutputMachine.state_append]
    rfl

def writeCalls (es : List ReceiverEvent) : List WriteCall :=
  (es.filterMap ReceiverEvent.managerOutput).map ManagerOutput.writeCall

/-- In every interleaving the frames that the receiver opens are reported as complete, are live,
or are taken out by the final flush. No frame is counted as partial, and the partial writes are
made by the final flush alone, after the full ones. -/
theorem receiver_settles_frames (clock : ℤ) (moves : List ReceiverMove) :
    FramesSettled (managerCalls clock moves) (machine.outputs (init clock) moves)
        (machine.state (init clock) moves) ∧
      ∃ full left, writeCalls (machine.outputs (init clock) moves) = full ++ left ∧
        (∀ c ∈ full, c.isPartial = false) ∧ (∀ c ∈ left, c.isPartial = true) ∧
        ((machine.state (init clock) moves).worker ≠ .ended → left = []) := by
  have hsettled := framesSettled_run clock moves
  obtain ⟨polled, flushed, houts, hpolled, hflushed, hrunning⟩ := hsettled.outputs
  refine ⟨hsettled, polled.map ManagerOutput.writeCall, flushed.map ManagerOutput.writeCall,
    ?_, ?_, ?_, ?_⟩
  · rw [writeCalls, houts, List.map_append]
  · intro c hc
    obtain ⟨out, hout, rfl⟩ := List.mem_map.mp hc
    exact (hpolled out hout).isPartial
  · intro c hc
    obtain ⟨out, hout, rfl⟩ := List.mem_map.mp hc
    exact (hflushed out hout).isPartial
  · intro hw
    rw [hrunning hw]
    rfl

end ReceiverState

end HvFrame
