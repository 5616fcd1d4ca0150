import HvFrame.FrameJournals
import HvFrame.FrameWriter
import HvFrame.ReceivePath

/-!
# Labels of reported frames

A report is compared with the journal it closes: which announced indices had been stored.
`forceEmitAll` and the complete branch of `pollTimers` label every frame correctly. The
timeout branch of `pollTimers` is reached by incomplete entries only and labels all of
them `COMPLETE`, so a run is labelled correctly exactly when it never takes that branch.
-/

namespace HvFrame

/-- Every index announced by the first packet of a journal had been stored. -/
def fullyStored (maxFrameSize payloadStride : ℕ) : List Arrival → Bool
  | [] => false
  | a :: as => (List.range a.pkt.hdr.packetCount.toNat).all (fun i =>
      (storedPacket maxFrameSize payloadStride a.pkt.hdr.packetCount
        ((a :: as).map Arrival.pkt) i).isSome)

/-- The reports of a run on a fresh manager, each with the journal it closes. -/
def reportedJournals (maxFrameSize payloadStride : ℕ) (calls : List TimedCall) :
    List (List Arrival × FrameResult) :=
  (FrameReassemblerManager.machine.history
    (FrameReassemblerManager.new maxFrameSize payloadStride) calls).filterMap (fun x =>
      x.2.report.map (fun r => (journal maxFrameSize payloadStride r.frameId x.1, r)))

def isFullFrameFile (w : FileWrite) : Prop :=
  ∃ part ∈ ["frame", "header", "raw"], w.name = frameFileName false part

/-- Labels, flags, statistics and files all tell received frames from gappy ones. -/
structure ReportsFaithful (maxFrameSize payloadStride : ℕ) (calls : List TimedCall) : Prop where
  state : ∀ x ∈ reportedJournals maxFrameSize payloadStride calls,
    x.2.state = if fullyStored maxFrameSize payloadStride x.1 then .complete else .partialFrame
  completeFlag : ∀ x ∈ reportedJournals maxFrameSize payloadStride calls,
    x.2.complete = true ↔ x.2.state = .complete
  corruptedFlag : ∀ x ∈ reportedJournals maxFrameSize payloadStride calls,
    x.2.corrupted = false ↔ x.2.state = .complete
  completeCount : (FrameReassemblerManager.machine.state
    (FrameReassemblerManager.new maxFrameSize payloadStride) calls).stats.complete =
      (reportedJournals maxFrameSize payloadStride calls).countP
        (fun x => fullyStored maxFrameSize payloadStride x.1)
  partialCount : (FrameReassemblerManager.machine.state
    (FrameReassemblerManager.new maxFrameSize payloadStride) calls).stats.partialFrames =
      (reportedJournals maxFrameSize payloadStride calls).countP
        (fun x => !fullyStored maxFrameSize payloadStride x.1)
  files : ∀ fopen, ∀ x ∈ reportedJournals maxFrameSize payloadStride calls,
    ∀ w ∈ workerOnFrameDone fopen x.2, isFullFrameFile w →
      fullyStored maxFrameSize payloadStride x.1 = true

/-- The call is a `pollTimers` that finds an entry which is not fully received and has
exceeded its lifetime or its idle time. -/
def TimesOutIncomplete (m : FrameReassemblerManager) (c : TimedCall) : Prop :=
  (∃ drops, c.call = .pollTimers drops) ∧
    ∃ k e, m.frames.find? k = some e ∧ e.fullyReceived = false ∧ e.timedOut c.now = true

def NeverTimesOutIncomplete (maxFrameSize payloadStride : ℕ) (calls : List TimedCall) : Prop :=
  ∀ x ∈ positions calls, ¬ TimesOutIncomplete (FrameReassemblerManager.machine.state
    (FrameReassemblerManager.new maxFrameSize payloadStride) x.1) x.2

variable {maxFrameSize payloadStride : ℕ} {calls : List TimedCall}

/-- The counter test of an entry is the abstract completeness of its journal. -/
theorem fullyReceived_eq_fullyStored {j : List Arrival} {e : FrameEntry}
    (h : entryOf maxFrameSize payloadStride j = some e) :
    e.fullyReceived = fullyStored maxFrameSize payloadStride j := by
  cases j with
  | nil => simp at h
  | cons a as =>
    have hiff := (entryOf_reflects h).complete_iff
    rw [Bool.eq_iff_iff]
    simp only [FrameEntry.fullyReceived, fullyStored, decide_eq_true_eq, List.all_eq_true,
      List.mem_range]
    exact hiff

theorem entryOf_wellFormed {j : List Arrival} {e : FrameEntry}
    (h : entryOf maxFrameSize payloadStride j = some e) : e.reassembler.WellFormed := by
  cases j with
  | nil => simp at h
  | cons a as => exact (entryOf_reflects h).wellFormed

theorem reportedJournals_concat (maxFrameSize payloadStride : ℕ) (calls : List TimedCall)
    (c : TimedCall) :
    reportedJournals maxFrameSize payloadStride (calls ++ [c]) =
      reportedJournals maxFrameSize payloadStride calls ++
        let m := FrameReassemblerManager.machine.state
          (FrameReassemblerManager.new maxFrameSize payloadStride) calls
        (m.callReports c).1.map (fun d =>
          (journal maxFrameSize payloadStride d.1.reassembler.currentFrameId calls,
            d.1.result d.2 (m.callReports c).2)) := by
  have hres := ((FrameReassemblerManager.machine.state
    (FrameReassemblerManager.new maxFrameSize payloadStride) calls).step_reports c).2
  simp only [reportedJournals, OutputMachine.history_concat, List.filterMap_append,
    List.filterMap_map, FrameReassemblerManager.machine_step]
  congr 1
  have hcomp : ((fun x : List TimedCall × ManagerOutput =>
      x.2.report.map (fun r => (journal maxFrameSize payloadStride r.frameId x.1, r))) ∘
        fun o => (calls, o)) = fun o => o.report.map
          (fun r => (journal maxFrameSize payloadStride r.frameId calls, r)) := rfl
  rw [hcomp, ← List.map_filterMap, hres, List.map_map]
  rfl

/-- A reported entry is live, and its state is the correct one or that of an incomplete
entry which `pollTimers` times out. -/
theorem mem_callReports {m : FrameReassemblerManager} {c : TimedCall}
    {d : FrameEntry × FrameState} (h : d ∈ (m.callReports c).1) :
    (∃ k, m.frames.find? k = some d.1) ∧
      (d.2 = d.1.forcedState ∨
        ((∃ drops, c.call = .pollTimers drops) ∧ d.1.fullyReceived = false ∧
          d.1.timedOut c.now = true)) := by
  obtain ⟨now, call⟩ := c
  cases call with
  | pushPacket pkt drops => simp [FrameReassemblerManager.callReports] at h
  | flushAll => simp [FrameReassemblerManager.callReports] at h
  | pollFlush => simp [FrameReassemblerManager.callReports] at h
  | forceEmitAll drops =>
    obtain ⟨⟨k, e⟩, hmem, hd⟩ := List.mem_filterMap.mp h
    obtain ⟨state, hstate, rfl⟩ := Option.map_eq_some_iff.mp hd
    exact ⟨⟨k, (OrderedMap.mem_entries_iff _ k e).mp hmem⟩, Or.inl (Option.some.inj hstate).symm⟩
  | pollTimers drops =>
    obtain ⟨⟨k, e⟩, hmem, hd⟩ := List.mem_filterMap.mp h
    obtain ⟨state, hstate, rfl⟩ := Option.map_eq_some_iff.mp hd
    refine ⟨⟨k, (OrderedMap.mem_entries_iff _ k e).mp hmem⟩, ?_⟩
    simp only [FrameEntry.timerVerdict] at hstate
    cases hfull : e.fullyReceived with
    | true => exact Or.inl (by simpa [hfull, FrameEntry.forcedState] using hstate.symm)
    | false =>
      cases htime : e.timedOut now with
      | true => exact Or.inr ⟨⟨drops, rfl⟩, rfl, rfl⟩
      | false => simp [hfull, htime] at hstate

/-- The timeout branch labels an incomplete entry `COMPLETE`. -/
theorem callReports_of_timesOutIncomplete {m : FrameReassemblerManager} {c : TimedCall}
    (h : TimesOutIncomplete m c) :
    ∃ e, (e, FrameState.complete) ∈ (m.callReports c).1 ∧ e.fullyReceived = false := by
  obtain ⟨⟨drops, hcall⟩, k, e, hfind, hfull, htime⟩ := h
  obtain ⟨now, call⟩ := c
  obtain rfl : call = .pollTimers drops := hcall
  refine ⟨e, List.mem_filterMap.mpr ⟨(k, e), ?_, ?_⟩, hfull⟩
  · exact (OrderedMap.mem_entries_iff _ k e).mpr hfind
  · simp [FrameEntry.timerVerdict, hfull, htime]

structure Labelled (maxFrameSize payloadStride : ℕ) (x : List Arrival × FrameResult) : Prop where
  state : x.2.state =
    if fullyStored maxFrameSize payloadStride x.1 then .complete else .partialFrame
  completeFlag : x.2.complete = fullyStored maxFrameSize payloadStride x.1
  corruptedFlag : x.2.corrupted = !fullyStored maxFrameSize payloadStride x.1

theorem labelled_result {j : List Arrival} {e : FrameEntry}
    (h : entryOf maxFrameSize payloadStride j = some e) (drops : ℕ) :
    Labelled maxFrameSize payloadStride (j, e.result e.forcedState drops) := by
  have hfull := fullyReceived_eq_fullyStored h
  have hwf := entryOf_wellFormed h
  refine ⟨?_, hfull, ?_⟩
  · simp [FrameEntry.result, FrameEntry.forcedState, hfull]
  · simp only [FrameEntry.result, FrameReassemblerV2.hasCorruption, hwf.clean, Bool.or_false,
      hwf.hasGap_eq, ← hfull, FrameEntry.fullyReceived]

theorem journal_of_callReports {c : TimedCall} {d : FrameEntry × FrameState}
    (h : d ∈ ((FrameReassemblerManager.machine.state
      (FrameReassemblerManager.new maxFrameSize payloadStride) calls).callReports c).1) :
    entryOf maxFrameSize payloadStride
      (journal maxFrameSize payloadStride d.1.reassembler.currentFrameId calls) = some d.1 := by
  obtain ⟨⟨k, hfind⟩, -⟩ := mem_callReports h
  rw [FrameReassemblerManager.currentFrameId_of_find? hfind,
    ← FrameReassemblerManager.find?_eq_entryOf, hfind]

theorem forcedState_of_callReports {m : FrameReassemblerManager} {c : TimedCall}
    (hstep : ¬ TimesOutIncomplete m c) {d : FrameEntry × FrameState}
    (hd : d ∈ (m.callReports c).1) : d.2 = d.1.forcedState := by
  obtain ⟨⟨k, hk⟩, heq | ⟨hpoll, hfull, htime⟩⟩ := mem_callReports hd
  · exact heq
  · exact absurd ⟨hpoll, k, d.1, hk, hfull, htime⟩ hstep

theorem labelled_of_callReports {c : TimedCall}
    (hstep : ¬ TimesOutIncomplete (FrameReassemblerManager.machine.state
      (FrameReassemblerManager.new maxFrameSize payloadStride) calls) c)
    {d : FrameEntry × FrameState}
    (hd : d ∈ ((FrameReassemblerManager.machine.state
      (FrameReassemblerManager.new maxFrameSize payloadStride) calls).callReports c).1)
    (drops : ℕ) :
    Labelled maxFrameSize payloadStride
      (journal maxFrameSize payloadStride d.1.reassembler.currentFrameId calls,
        d.1.result d.2 drops) := by
  rw [forcedState_of_callReports hstep hd]
  exact labelled_result (journal_of_callReports hd) drops

theorem counted_of_callReports {c : TimedCall}
    (hstep : ¬ TimesOutIncomplete (FrameReassemblerManager.machine.state
      (FrameReassemblerManager.new maxFrameSize payloadStride) calls) c)
    {d : FrameEntry × FrameState}
    (hd : d ∈ ((FrameReassemblerManager.machine.state
      (FrameReassemblerManager.new maxFrameSize payloadStride) calls).callReports c).1) :
    decide (d.2 = .partialFrame) = !fullyStored maxFrameSize payloadStride
      (journal maxFrameSize payloadStride d.1.reassembler.currentFrameId calls) := by
  rw [← fullyReceived_eq_fullyStored (journal_of_callReports hd),
    forcedState_of_callReports hstep hd, FrameEntry.forcedState]
  cases d.1.fullyReceived <;> rfl

/-- A run that never times out an incomplete entry labels every report correctly, and its
statistics count the labels. -/
theorem labelled_of_neverTimesOutIncomplete
    (h : NeverTimesOutIncomplete maxFrameSize payloadStride calls) :
    (∀ x ∈ reportedJournals maxFrameSize payloadStride calls,
        Labelled maxFrameSize payloadStride x) ∧
      (FrameReassemblerManager.machine.state
        (FrameReassemblerManager.new maxFrameSize payloadStride) calls).stats.complete =
          (reportedJournals maxFrameSize payloadStride calls).countP
            (fun x => fullyStored maxFrameSize payloadStride x.1) ∧
      (FrameReassemblerManager.machine.state
        (FrameReassemblerManager.new maxFrameSize payloadStride) calls).stats.partialFrames =
          (reportedJournals maxFrameSize payloadStride calls).countP
            (fun x => !fullyStored maxFrameSize payloadStride x.1) := by
  induction calls using List.reverseRecOn with
  | nil => exact ⟨by simp [reportedJournals], rfl, rfl⟩
  | append_singleton calls c ih =>
    have hprev : NeverTimesOutIncomplete maxFrameSize payloadStride calls :=
      fun x hx => h x (mem_positions_append_left hx [c])
    have hstep := h (calls, c) (mem_positions_iff.mpr ⟨[], rfl⟩)
    obtain ⟨hlabels, hcomplete, hpartial⟩ := ih hprev
    have hstats := ((FrameReassemblerManager.machine.state
      (FrameReassemblerManager.new maxFrameSize payloadStride) calls).step_reports c).1
    rw [reportedJournals_concat, OutputMachine.state_append, OutputMachine.state_cons,
      OutputMachine.state_nil, FrameReassemblerManager.machine_step, hstats,
      FrameReassemblerManager.foldl_count]
    refine ⟨?_, ?_, ?_⟩
    · intro x hx
      rcases List.mem_append.mp hx with hx | hx
      · exact hlabels x hx
      · obtain ⟨d, hd, rfl⟩ := List.mem_map.mp hx
        exact labelled_of_callReports hstep hd _
    · simp only [List.countP_append, List.countP_map, hcomplete]
      congr 1
      exact List.countP_congr (fun d hd => by simp [counted_of_callReports hstep hd])
    · simp only [List.countP_append, List.countP_map, hpartial]
      congr 1
      exact List.countP_congr (fun d hd => by rw [counted_of_callReports hstep hd]; rfl)

theorem fullFrame_of_workerOnFrameDone {fopen : String → Bool} {r : FrameResult} {w : FileWrite}
    (hw : w ∈ workerOnFrameDone fopen r) (hfull : isFullFrameFile w) :
    r.state ≠ .partialFrame := by
  obtain ⟨part, hpart, hname⟩ := mem_writeFrameToFile hw
  obtain ⟨part', hpart', hname'⟩ := hfull
  have hflag := frameFileName_isPartial hpart hpart' (hname.symm.trans hname')
  simpa using hflag

theorem reportsFaithful_of_neverTimesOutIncomplete
    (h : NeverTimesOutIncomplete maxFrameSize payloadStride calls) :
    ReportsFaithful maxFrameSize payloadStride calls := by
  obtain ⟨hlabels, hcomplete, hpartial⟩ := labelled_of_neverTimesOutIncomplete h
  refine ⟨fun x hx => (hlabels x hx).state, ?_, ?_, hcomplete, hpartial, ?_⟩
  · intro x hx
    rw [(hlabels x hx).completeFlag, (hlabels x hx).state]
    cases fullyStored maxFrameSize payloadStride x.1 <;> simp
  · intro x hx
    rw [(hlabels x hx).corruptedFlag, (hlabels x hx).state]
    cases fullyStored maxFrameSize payloadStride x.1 <;> simp
  · intro fopen x hx w hw hfull
    have hstate := fullFrame_of_workerOnFrameDone hw hfull
    rw [(hlabels x hx).state] at hstate
    by_contra hnot
    simp [hnot] at hstate

theorem mem_reportedJournals_iff {x : List Arrival × FrameResult} :
    x ∈ reportedJournals maxFrameSize payloadStride calls ↔
      ∃ p ∈ positions calls,
        let m := FrameReassemblerManager.machine.state
          (FrameReassemblerManager.new maxFrameSize payloadStride) p.1
        ∃ d ∈ (m.callReports p.2).1,
          (journal maxFrameSize payloadStride d.1.reassembler.currentFrameId p.1,
            d.1.result d.2 (m.callReports p.2).2) = x := by
  induction calls using List.reverseRecOn with
  | nil => simp [reportedJournals]
  | append_singleton calls c ih =>
    rw [reportedJournals_concat, positions_concat, List.mem_append, ih, List.mem_map]
    simp only [List.mem_append, List.mem_singleton, or_and_right, exists_or, exists_eq_left]

theorem pushed_of_reported {x : List Arrival × FrameResult}
    (h : x ∈ reportedJournals maxFrameSize payloadStride calls) {a : Arrival}
    (ha : a ∈ x.1) : ⟨a.now, .pushPacket a.pkt a.queueDropCount⟩ ∈ calls := by
  obtain ⟨⟨before, c⟩, hpos, d, -, rfl⟩ := mem_reportedJournals_iff.mp h
  obtain ⟨after, rfl⟩ := mem_positions_iff.mp hpos
  exact List.mem_append_left _ (mem_arrivals_iff.mp (mem_journal ha)).1

theorem entry_of_mem_reportedJournals {x : List Arrival × FrameResult}
    (h : x ∈ reportedJournals maxFrameSize payloadStride calls) :
    ∃ e state drops, entryOf maxFrameSize payloadStride x.1 = some e ∧
      x.2 = e.result state drops := by
  obtain ⟨p, -, d, hd, rfl⟩ := mem_reportedJournals_iff.mp h
  exact ⟨d.1, d.2, _, journal_of_callReports hd, rfl⟩

/-- A call that times out an incomplete entry spoils the run, whatever comes after it. -/
theorem not_reportsFaithful_of_timesOutIncomplete {p : List TimedCall × TimedCall}
    (hp : p ∈ positions calls)
    (h : TimesOutIncomplete (FrameReassemblerManager.machine.state
      (FrameReassemblerManager.new maxFrameSize payloadStride) p.1) p.2) :
    ¬ ReportsFaithful maxFrameSize payloadStride calls := by
  obtain ⟨e, hdue, hfull⟩ := callReports_of_timesOutIncomplete h
  intro hfaithful
  have hjournal := journal_of_callReports hdue
  have hstate := hfaithful.state _ (mem_reportedJournals_iff.mpr ⟨p, hp, _, hdue, rfl⟩)
  rw [← fullyReceived_eq_fullyStored hjournal, hfull] at hstate
  simp [FrameEntry.result] at hstate

/-- Labels, flags, statistics and files are right exactly in the runs in which no
`pollTimers` call times out an incompletely received entry. -/
theorem reportsFaithful_iff (maxFrameSize payloadStride : ℕ) (calls : List TimedCall) :
    ReportsFaithful maxFrameSize payloadStride calls ↔
      NeverTimesOutIncomplete maxFrameSize payloadStride calls := by
  refine ⟨fun h p hp htimes => ?_, reportsFaithful_of_neverTimesOutIncomplete⟩
  exact not_reportsFaithful_of_timesOutIncomplete hp htimes h

def gappyRun : List TimedCall :=
  [⟨0, .pushPacket ⟨⟨1, 0, 2, 4⟩, fun _ => 7, false⟩ 0⟩, ⟨31 * 1000000, .pollTimers 0⟩]

/-- The receiver reports this gappy frame as a complete one. -/
theorem gappyRun_not_reportsFaithful :
    gappyRun.Pairwise (fun a b => a.now ≤ b.now) ∧
      ¬ ReportsFaithful Receiver.maxFrameSize Receiver.payloadStride gappyRun := by
  have hp : (gappyRun.take 1, ⟨31 * 1000000, .pollTimers 0⟩) ∈ positions gappyRun :=
    mem_positions_iff.mpr ⟨[], rfl⟩
  refine ⟨by decide, not_reportsFaithful_of_timesOutIncomplete hp ⟨⟨0, rfl⟩, 1, _, rfl, ?_, ?_⟩⟩
  · decide
  · decide

end HvFrame
