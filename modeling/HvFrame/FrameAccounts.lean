import HvFrame.FrameJournals
import HvFrame.ReceivePath

/-!
# Accounting for the frames

Every entry that was opened is live, or was counted in the statistics when it was emitted, or
was taken out by `pollFlush` or `flushAll`, which count nothing. The books balance exactly in
the runs in which the flushes find nothing to take out.
-/

namespace HvFrame

namespace FrameReassemblerManager

def opensEntry (m : FrameReassemblerManager) (c : TimedCall) : Bool :=
  match c.call with
  | .pushPacket pkt _ => (m.frames.find? pkt.hdr.frameId).isNone
  | _ => false

/-- The entries that a call takes out without counting them. -/
def flushedEntries (m : FrameReassemblerManager) (c : TimedCall) : List (UInt32 × FrameEntry) :=
  match c.call with
  | .pollFlush => m.frames.entries.filter (fun kv => (kv.2.flushVerdict c.now).isSome)
  | .flushAll => m.frames.entries
  | _ => []

end FrameReassemblerManager

/-- The number of entries ever created. -/
def openedEntries (maxFrameSize payloadStride : ℕ) (calls : List TimedCall) : ℕ :=
  (positions calls).countP (fun x => (FrameReassemblerManager.machine.state
    (FrameReassemblerManager.new maxFrameSize payloadStride) x.1).opensEntry x.2)

def flushedCount (maxFrameSize payloadStride : ℕ) (calls : List TimedCall) : ℕ :=
  ((positions calls).map (fun x => ((FrameReassemblerManager.machine.state
    (FrameReassemblerManager.new maxFrameSize payloadStride) x.1).flushedEntries x.2).length)).sum

/-- In every state of the run, what was opened is live or counted, and counted once. -/
def AlwaysAccounted (maxFrameSize payloadStride : ℕ) (calls : List TimedCall) : Prop :=
  ∀ pre post, calls = pre ++ post →
    let m := FrameReassemblerManager.machine.state
      (FrameReassemblerManager.new maxFrameSize payloadStride) pre
    openedEntries maxFrameSize payloadStride pre = m.frames.size + m.stats.total ∧
      m.stats.total = m.stats.complete + m.stats.partialFrames

/-- No `pollFlush` call finds an entry that is complete or past its lifetime, and no `flushAll`
call finds any entry. -/
def NeverFlushes (maxFrameSize payloadStride : ℕ) (calls : List TimedCall) : Prop :=
  ∀ x ∈ positions calls, (FrameReassemblerManager.machine.state
    (FrameReassemblerManager.new maxFrameSize payloadStride) x.1).flushedEntries x.2 = []

namespace FrameReassemblerManager

variable (m : FrameReassemblerManager)

theorem emitLoop_account (verdict : FrameEntry → Option FrameState) (drops : ℕ) :
    (m.emitLoop verdict drops).1.frames.size + (m.emitLoop verdict drops).1.stats.total =
      m.frames.size + m.stats.total := by
  have hdue : (m.due verdict).length =
      (m.frames.entries.filter (fun kv => (verdict kv.2).isSome)).length := by
    rw [due, List.length_filterMap_eq_countP, List.countP_eq_length_filter]
    simp
  have hsplit := m.frames.entries.length_eq_length_filter_add (fun kv => (verdict kv.2).isSome)
  have hkept : (m.emitLoop verdict drops).1.frames.size =
      (m.frames.entries.filter (fun kv => !(verdict kv.2).isSome)).length := by
    rw [OrderedMap.size, emitLoop_entries]
    simp
  have htotal : (m.emitLoop verdict drops).1.stats.total =
      m.stats.total + (m.due verdict).length := by
    rw [(m.emitLoop_reports verdict drops).1, foldl_count]
  rw [hkept, htotal, hdue, OrderedMap.size]
  omega

/-- A call keeps the books when what a flush takes out is written off. -/
theorem step_account (c : TimedCall) :
    (m.step c).1.frames.size + (m.step c).1.stats.total + (m.flushedEntries c).length =
      m.frames.size + m.stats.total + if m.opensEntry c then 1 else 0 := by
  obtain ⟨now, call⟩ := c
  cases call with
  | pushPacket pkt drops =>
    have hsize := m.frames.size_insert pkt.hdr.frameId (((m.frames.find? pkt.hdr.frameId).getD
      (.opened m.maxFrameSize m.payloadStride pkt drops now)).receive pkt now)
    have hopens : m.opensEntry ⟨now, .pushPacket pkt drops⟩ =
        (m.frames.find? pkt.hdr.frameId).isNone := rfl
    rw [hopens]
    simp only [step, pushPacket, flushedEntries, hsize, List.length_nil]
    omega
  | pollTimers drops =>
    exact m.emitLoop_account (fun entry => entry.timerVerdict now) drops
  | forceEmitAll drops =>
    exact m.emitLoop_account (fun entry => some entry.forcedState) drops
  | flushAll =>
    simp only [step, flushAll, flushedEntries, opensEntry, OrderedMap.size, OrderedMap.empty,
      List.length_nil, Bool.false_eq_true, if_false]
    omega
  | pollFlush =>
    have hsplit := m.frames.entries.length_eq_length_filter_add
      (fun kv => (kv.2.flushVerdict now).isSome)
    have hkept : (m.pollFlush now).1.frames.size =
        (m.frames.entries.filter (fun kv => !(kv.2.flushVerdict now).isSome)).length := by
      rw [OrderedMap.size, pollFlush_entries]
      simp [FrameEntry.flushWrite]
    have hstats : (m.pollFlush now).1.stats = m.stats := rfl
    simp only [step, flushedEntries, opensEntry, hkept, hstats, Bool.false_eq_true, if_false]
    rw [OrderedMap.size]
    omega

theorem step_total (c : TimedCall)
    (h : m.stats.total = m.stats.complete + m.stats.partialFrames) :
    (m.step c).1.stats.total = (m.step c).1.stats.complete + (m.step c).1.stats.partialFrames := by
  have hsplit := (m.callReports c).1.length_eq_countP_add_countP (fun d => d.2 = .partialFrame)
  rw [(m.step_reports c).1, foldl_count]
  simp only [decide_eq_true_eq, decide_not] at hsplit ⊢
  omega

end FrameReassemblerManager

variable {maxFrameSize payloadStride : ℕ} {calls : List TimedCall}

theorem openedEntries_concat (maxFrameSize payloadStride : ℕ) (calls : List TimedCall)
    (c : TimedCall) :
    openedEntries maxFrameSize payloadStride (calls ++ [c]) =
      openedEntries maxFrameSize payloadStride calls +
        if (FrameReassemblerManager.machine.state (FrameReassemblerManager.new maxFrameSize
          payloadStride) calls).opensEntry c then 1 else 0 := by
  rw [openedEntries, positions_concat, List.countP_append, List.countP_singleton, ← openedEntries]

theorem flushedCount_concat (maxFrameSize payloadStride : ℕ) (calls : List TimedCall)
    (c : TimedCall) :
    flushedCount maxFrameSize payloadStride (calls ++ [c]) =
      flushedCount maxFrameSize payloadStride calls +
        ((FrameReassemblerManager.machine.state (FrameReassemblerManager.new maxFrameSize
          payloadStride) calls).flushedEntries c).length := by
  rw [flushedCount, positions_concat, List.map_append, List.sum_append, ← flushedCount,
    List.map_singleton, List.sum_singleton]

/-- The books of a run, with what its flushes took out. -/
theorem opened_eq_live_add_counted_add_flushed (maxFrameSize payloadStride : ℕ)
    (calls : List TimedCall) :
    let m := FrameReassemblerManager.machine.state
      (FrameReassemblerManager.new maxFrameSize payloadStride) calls
    openedEntries maxFrameSize payloadStride calls =
        m.frames.size + m.stats.total + flushedCount maxFrameSize payloadStride calls ∧
      m.stats.total = m.stats.complete + m.stats.partialFrames := by
  induction calls using List.reverseRecOn with
  | nil => exact ⟨rfl, rfl⟩
  | append_singleton calls c ih =>
    obtain ⟨hopened, htotal⟩ := ih
    have hstep := FrameReassemblerManager.step_account (FrameReassemblerManager.machine.state
      (FrameReassemblerManager.new maxFrameSize payloadStride) calls) c
    simp only [OutputMachine.state_append, OutputMachine.state_cons, OutputMachine.state_nil,
      FrameReassemblerManager.machine_step]
    refine ⟨?_, FrameReassemblerManager.step_total _ c htotal⟩
    rw [openedEntries_concat, flushedCount_concat, hopened]
    omega

theorem flushedCount_eq_zero_iff :
    flushedCount maxFrameSize payloadStride calls = 0 ↔
      NeverFlushes maxFrameSize payloadStride calls := by
  rw [flushedCount, List.sum_eq_zero_iff_forall_eq_nat, List.forall_mem_map]
  exact forall₂_congr (fun _ _ => List.length_eq_zero_iff)

theorem NeverFlushes.of_append {pre post : List TimedCall}
    (h : NeverFlushes maxFrameSize payloadStride (pre ++ post)) :
    NeverFlushes maxFrameSize payloadStride pre :=
  fun x hx => h x (mem_positions_append_left hx post)

/-- The books balance in every state of a run exactly if no flush takes anything out. -/
theorem alwaysAccounted_iff (maxFrameSize payloadStride : ℕ) (calls : List TimedCall) :
    AlwaysAccounted maxFrameSize payloadStride calls ↔
      NeverFlushes maxFrameSize payloadStride calls := by
  constructor
  · intro h
    obtain ⟨hbalance, -⟩ := h calls [] (List.append_nil _).symm
    obtain ⟨hopened, -⟩ :=
      opened_eq_live_add_counted_add_flushed maxFrameSize payloadStride calls
    rw [← flushedCount_eq_zero_iff]
    omega
  · rintro h pre post rfl
    obtain ⟨hopened, htotal⟩ :=
      opened_eq_live_add_counted_add_flushed maxFrameSize payloadStride pre
    rw [flushedCount_eq_zero_iff.mpr h.of_append, Nat.add_zero] at hopened
    exact ⟨hopened, htotal⟩

def shutdownFlushRun : List TimedCall :=
  [⟨0, .pushPacket ⟨⟨1, 0, 2, 4⟩, fun _ => 7, false⟩ 0⟩, ⟨0, .flushAll⟩]

/-- The flushed frame was opened and is in no count. -/
theorem not_alwaysAccounted :
    ¬ ∀ calls, calls.Pairwise (fun a b => a.now ≤ b.now) →
      AlwaysAccounted Receiver.maxFrameSize Receiver.payloadStride calls := by
  intro h
  obtain ⟨hbalance, -⟩ := h shutdownFlushRun (by decide) shutdownFlushRun [] rfl
  have hopened : openedEntries Receiver.maxFrameSize Receiver.payloadStride shutdownFlushRun =
      1 := by
    decide
  rw [hopened] at hbalance
  exact absurd hbalance (by decide)

end HvFrame
