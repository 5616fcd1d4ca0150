import HvFrame.FrameReassemblerV2
import HvFrame.OrderedMaps
import HvFrame.OutputMachines

/-!
# The reassembler manager

One entry per live `frame_id`, opened by the first packet of that id. Four operations
remove entries: `pollTimers` and `forceEmitAll` report them through `onFrameDone`, while
`pollFlush` and `flushAll` call `write_frame_to_file` themselves. Every call carries the
`steady_clock` reading it takes, in nanoseconds. The 64-bit statistics are counted in `ℕ`.
-/

namespace HvFrame

/-- `MAX_FRAME_LIFETIME`, 8000 ms. -/
def maxFrameLifetime : ℤ := 8000 * 1000000

/-- `FRAME_IDLE_TIMEOUT`, 30 ms. -/
def frameIdleTimeout : ℤ := 30 * 1000000

structure FrameEntry where
  reassembler : FrameReassemblerV2
  firstPacketTime : ℤ
  lastUpdate : ℤ
  queueDropAtStart : ℕ
  deriving DecidableEq, Repr

structure FrameStats where
  total : ℕ
  complete : ℕ
  partialFrames : ℕ
  deriving DecidableEq, Repr

structure FrameReassemblerManager where
  maxFrameSize : ℕ
  payloadStride : ℕ
  frames : OrderedMap UInt32 FrameEntry
  stats : FrameStats

/-- Effects of the manager: a call of `onFrameDone`, or a direct call of
`write_frame_to_file`. -/
inductive ManagerOutput where
  | onFrameDone (r : FrameResult)
  | writeFrameToFile (frame : List UInt8) (frameSize : ℕ) (isPartial : Bool)
  deriving DecidableEq, Repr

def ManagerOutput.report : ManagerOutput → Option FrameResult
  | .onFrameDone r => some r
  | .writeFrameToFile .. => none

inductive ManagerCall where
  | pushPacket (pkt : RxPacket) (queueDropCount : ℕ)
  | pollTimers (queueDropNow : ℕ)
  | pollFlush
  | flushAll
  | forceEmitAll (queueDropNow : ℕ)

structure TimedCall where
  now : ℤ
  call : ManagerCall

namespace FrameEntry

def opened (maxFrameSize payloadStride : ℕ) (pkt : RxPacket) (queueDropCount : ℕ) (now : ℤ) :
    FrameEntry where
  reassembler := (FrameReassemblerV2.new maxFrameSize payloadStride).startNewFrame
    pkt.hdr.frameId pkt.hdr.packetCount
  firstPacketTime := now
  lastUpdate := now
  queueDropAtStart := queueDropCount

def receive (entry : FrameEntry) (pkt : RxPacket) (now : ℤ) : FrameEntry :=
  { entry with
    reassembler := entry.reassembler.pushPacket pkt.hdr pkt.payload pkt.gapBefore
    lastUpdate := now }

/-- The counter test `fr.receivedPackets() == fr.expectedPackets()`. -/
def fullyReceived (entry : FrameEntry) : Bool :=
  entry.reassembler.receivedPacketsCount = entry.reassembler.expectedPacketCount

/-- One of the two timeouts of `pollTimers` has passed. -/
def timedOut (entry : FrameEntry) (now : ℤ) : Bool :=
  maxFrameLifetime < now - entry.firstPacketTime || frameIdleTimeout < now - entry.lastUpdate

/-- The state with which `pollTimers` emits an entry, or `none` when it skips it. The
timeout branch tests `!=` where `forceEmitAll` tests `==`. -/
def timerVerdict (entry : FrameEntry) (now : ℤ) : Option FrameState :=
  if entry.fullyReceived then some .complete
  else if !entry.timedOut now then none
  else some (if !entry.fullyReceived then .complete else .partialFrame)

/-- The state with which `forceEmitAll` emits an entry. -/
def forcedState (entry : FrameEntry) : FrameState :=
  if entry.fullyReceived then .complete else .partialFrame

/-- The flag with which `pollFlush` writes an entry, or `none` when it keeps waiting. -/
def flushVerdict (entry : FrameEntry) (now : ℤ) : Option Bool :=
  if entry.reassembler.isFrameComplete && !entry.reassembler.hasGap then some false
  else if maxFrameLifetime < now - entry.firstPacketTime then some true
  else none

def flushWrite (entry : FrameEntry) (now : ℤ) : Option ManagerOutput :=
  (entry.flushVerdict now).map (fun isPartial =>
    .writeFrameToFile entry.reassembler.frameBuffer entry.reassembler.frameSize isPartial)

def result (entry : FrameEntry) (finalState : FrameState) (queueDropNow : ℕ) : FrameResult where
  frameId := entry.reassembler.currentFrameId
  state := finalState
  complete := entry.fullyReceived
  corrupted := entry.reassembler.hasGap || entry.reassembler.hasCorruption
  queuePressure := entry.queueDropAtStart < queueDropNow
  expectedPackets := entry.reassembler.expectedPacketCount
  receivedPackets := entry.reassembler.receivedPacketsCount
  frameSize := entry.reassembler.frameSize
  frameData := entry.reassembler.frameBuffer

end FrameEntry

def FrameStats.count (stats : FrameStats) (finalState : FrameState) : FrameStats :=
  if finalState = .partialFrame then
    { stats with total := stats.total + 1, partialFrames := stats.partialFrames + 1 }
  else { stats with total := stats.total + 1, complete := stats.complete + 1 }

namespace FrameReassemblerManager

def new (maxFrameSize payloadStride : ℕ) : FrameReassemblerManager :=
  ⟨maxFrameSize, payloadStride, OrderedMap.empty, ⟨0, 0, 0⟩⟩

def pushPacket (m : FrameReassemblerManager) (pkt : RxPacket) (queueDropCount : ℕ) (now : ℤ) :
    FrameReassemblerManager :=
  let entry := (m.frames.find? pkt.hdr.frameId).getD
    (.opened m.maxFrameSize m.payloadStride pkt queueDropCount now)
  { m with frames := m.frames.insert pkt.hdr.frameId (entry.receive pkt now) }

def emitFrame (queueDropNow : ℕ) (acc : FrameStats × List ManagerOutput)
    (due : FrameEntry × FrameState) : FrameStats × List ManagerOutput :=
  (acc.1.count due.2, acc.2 ++ [.onFrameDone (due.1.result due.2 queueDropNow)])

/-- The shared loop of `pollTimers` and `forceEmitAll`: emit and erase what has a verdict. -/
def emitLoop (m : FrameReassemblerManager) (verdict : FrameEntry → Option FrameState)
    (queueDropNow : ℕ) : FrameReassemblerManager × List ManagerOutput :=
  let body := fun (_ : UInt32) entry acc =>
    ((verdict entry).map (fun state => (entry, state))).map (emitFrame queueDropNow acc)
  let swept := OrderedMap.eraseLoop body m.frames.size m.frames m.frames.begin (m.stats, [])
  ({ m with frames := swept.1, stats := swept.2.1 }, swept.2.2)

def pollTimers (m : FrameReassemblerManager) (queueDropNow : ℕ) (now : ℤ) :
    FrameReassemblerManager × List ManagerOutput :=
  m.emitLoop (fun entry => entry.timerVerdict now) queueDropNow

def forceEmitAll (m : FrameReassemblerManager) (queueDropNow : ℕ) :
    FrameReassemblerManager × List ManagerOutput :=
  m.emitLoop (fun entry => some entry.forcedState) queueDropNow

def pollFlush (m : FrameReassemblerManager) (now : ℤ) :
    FrameReassemblerManager × List ManagerOutput :=
  let body := fun (_ : UInt32) (entry : FrameEntry) written =>
    (entry.flushWrite now).map (fun call => written ++ [call])
  let swept := OrderedMap.eraseLoop body m.frames.size m.frames m.frames.begin []
  ({ m with frames := swept.1 }, swept.2)

def flushAll (m : FrameReassemblerManager) : FrameReassemblerManager × List ManagerOutput :=
  ({ m with frames := OrderedMap.empty },
    (m.frames.entries.filter (fun kv => kv.2.reassembler.hasAnyPacket)).map (fun kv =>
      .writeFrameToFile kv.2.reassembler.frameBuffer kv.2.reassembler.frameSize true))

def step (m : FrameReassemblerManager) (c : TimedCall) :
    FrameReassemblerManager × List ManagerOutput :=
  match c.call with
  | .pushPacket pkt queueDropCount => (m.pushPacket pkt queueDropCount c.now, [])
  | .pollTimers queueDropNow => m.pollTimers queueDropNow c.now
  | .pollFlush => m.pollFlush c.now
  | .flushAll => m.flushAll
  | .forceEmitAll queueDropNow => m.forceEmitAll queueDropNow

def machine : OutputMachine FrameReassemblerManager TimedCall ManagerOutput := ⟨step⟩

@[simp] theorem machine_step (m : FrameReassemblerManager) (c : TimedCall) :
    machine.step m c = m.step c := rfl

def due (m : FrameReassemblerManager) (verdict : FrameEntry → Option FrameState) :
    List (FrameEntry × FrameState) :=
  m.frames.entries.filterMap (fun e => (verdict e.2).map (fun state => (e.2, state)))

@[simp] theorem pushPacket_find? (m : FrameReassemblerManager) (pkt : RxPacket) (drops : ℕ)
    (now : ℤ) (k : UInt32) :
    (m.pushPacket pkt drops now).frames.find? k =
      if pkt.hdr.frameId = k then
        some (((m.frames.find? pkt.hdr.frameId).getD
          (.opened m.maxFrameSize m.payloadStride pkt drops now)).receive pkt now)
      else m.frames.find? k := by
  simp [pushPacket]

private theorem foldl_emitFrame (drops : ℕ) (ds : List (FrameEntry × FrameState))
    (acc : FrameStats × List ManagerOutput) :
    ds.foldl (emitFrame drops) acc =
      (ds.foldl (fun stats d => stats.count d.2) acc.1,
        acc.2 ++ ds.map (fun d => .onFrameDone (d.1.result d.2 drops))) := by
  induction ds generalizing acc with
  | nil => simp
  | cons d ds ih => simp [ih, emitFrame]

/-- An emitting loop keeps exactly the entries without a verdict. -/
theorem emitLoop_entries (m : FrameReassemblerManager) (verdict : FrameEntry → Option FrameState)
    (drops : ℕ) :
    (m.emitLoop verdict drops).1.frames.entries =
      m.frames.entries.filter (fun e => (verdict e.2).isNone) := by
  simp only [emitLoop, (OrderedMap.eraseLoop_eq_sweep _ _ _).1]
  rw [OrderedMap.sweep_verdicts (fun _ e => (verdict e).map (fun state => (e, state)))]
  simp

theorem emitLoop_find? (m : FrameReassemblerManager) (verdict : FrameEntry → Option FrameState)
    (drops : ℕ) (k : UInt32) :
    (m.emitLoop verdict drops).1.frames.find? k =
      (m.frames.find? k).filter (fun e => (verdict e).isNone) := by
  simp only [OrderedMap.find?, emitLoop_entries]
  exact OrderedMap.lookup_filter _ m.frames.sorted k

/-- Each due entry is counted once and reported once, in key order. -/
theorem emitLoop_reports (m : FrameReassemblerManager) (verdict : FrameEntry → Option FrameState)
    (drops : ℕ) :
    (m.emitLoop verdict drops).1.stats =
        (m.due verdict).foldl (fun stats d => stats.count d.2) m.stats ∧
      (m.emitLoop verdict drops).2 =
        (m.due verdict).map (fun d => .onFrameDone (d.1.result d.2 drops)) := by
  simp only [emitLoop, (OrderedMap.eraseLoop_eq_sweep _ _ _).2]
  rw [OrderedMap.sweep_verdicts (fun _ e => (verdict e).map (fun state => (e, state))),
    foldl_emitFrame]
  exact ⟨rfl, List.nil_append _⟩

theorem emitLoop_quiet {m : FrameReassemblerManager} {verdict : FrameEntry → Option FrameState}
    (h : ∀ kv ∈ m.frames.entries, verdict kv.2 = none) (drops : ℕ) :
    m.emitLoop verdict drops = (m, []) := by
  have hdue : m.due verdict = [] :=
    List.filterMap_eq_nil_iff.mpr (fun kv hkv => by rw [h kv hkv]; rfl)
  obtain ⟨hstats, houts⟩ := m.emitLoop_reports verdict drops
  rw [hdue] at hstats houts
  have hframes : (m.emitLoop verdict drops).1.frames = m.frames := by
    refine OrderedMap.eq_of_entries ?_
    rw [emitLoop_entries]
    exact List.filter_eq_self.mpr (fun kv hkv => by rw [h kv hkv]; rfl)
  have hstate : (m.emitLoop verdict drops).1 =
      { m with
        frames := (m.emitLoop verdict drops).1.frames
        stats := (m.emitLoop verdict drops).1.stats } := rfl
  refine Prod.ext ?_ houts
  rw [hstate, hframes, hstats]
  rfl

theorem pollFlush_entries (m : FrameReassemblerManager) (now : ℤ) :
    (m.pollFlush now).1.frames.entries =
      m.frames.entries.filter (fun e => (e.2.flushWrite now).isNone) := by
  simp only [pollFlush, (OrderedMap.eraseLoop_eq_sweep _ _ _).1]
  rw [OrderedMap.sweep_verdicts (fun _ (e : FrameEntry) => e.flushWrite now)
    (fun written call => written ++ [call])]

theorem pollFlush_find? (m : FrameReassemblerManager) (now : ℤ) (k : UInt32) :
    (m.pollFlush now).1.frames.find? k =
      (m.frames.find? k).filter (fun e => (e.flushWrite now).isNone) := by
  simp only [OrderedMap.find?, pollFlush_entries]
  exact OrderedMap.lookup_filter _ m.frames.sorted k

private theorem foldl_append_singleton (ws acc : List ManagerOutput) :
    ws.foldl (fun written call => written ++ [call]) acc = acc ++ ws := by
  induction ws generalizing acc with
  | nil => simp
  | cons w ws ih => simp [ih]

theorem pollFlush_writes (m : FrameReassemblerManager) (now : ℤ) :
    (m.pollFlush now).2 = m.frames.entries.filterMap (fun e => e.2.flushWrite now) := by
  simp only [pollFlush, (OrderedMap.eraseLoop_eq_sweep _ _ _).2]
  rw [OrderedMap.sweep_verdicts (fun _ (e : FrameEntry) => e.flushWrite now)
    (fun written call => written ++ [call]), foldl_append_singleton, List.nil_append]

theorem pollFlush_quiet {m : FrameReassemblerManager} {now : ℤ}
    (h : ∀ kv ∈ m.frames.entries, kv.2.flushWrite now = none) : m.pollFlush now = (m, []) := by
  have hframes : (m.pollFlush now).1.frames = m.frames := by
    refine OrderedMap.eq_of_entries ?_
    rw [pollFlush_entries]
    exact List.filter_eq_self.mpr (fun kv hkv => by rw [h kv hkv]; rfl)
  have hstate : (m.pollFlush now).1 = { m with frames := (m.pollFlush now).1.frames } := rfl
  refine Prod.ext ?_ ?_
  · rw [hstate, hframes]
  · rw [pollFlush_writes]
    exact List.filterMap_eq_nil_iff.mpr h

/-- The entries a call reports with their final states, and the drop count it was given. -/
def callReports (m : FrameReassemblerManager) (c : TimedCall) :
    List (FrameEntry × FrameState) × ℕ :=
  match c.call with
  | .pollTimers queueDropNow => (m.due (fun entry => entry.timerVerdict c.now), queueDropNow)
  | .forceEmitAll queueDropNow => (m.due (fun entry => some entry.forcedState), queueDropNow)
  | _ => ([], 0)

private theorem emitLoop_results (m : FrameReassemblerManager)
    (verdict : FrameEntry → Option FrameState) (drops : ℕ) :
    (m.emitLoop verdict drops).2.filterMap ManagerOutput.report =
      (m.due verdict).map (fun d => d.1.result d.2 drops) := by
  rw [(m.emitLoop_reports verdict drops).2, List.filterMap_map, ← List.filterMap_eq_map]
  rfl

/-- Exactly the reported entries are counted and handed to `onFrameDone`. -/
theorem step_reports (m : FrameReassemblerManager) (c : TimedCall) :
    (m.step c).1.stats =
        (m.callReports c).1.foldl (fun stats d => stats.count d.2) m.stats ∧
      (m.step c).2.filterMap ManagerOutput.report =
        (m.callReports c).1.map (fun d => d.1.result d.2 (m.callReports c).2) := by
  obtain ⟨now, call⟩ := c
  cases call with
  | pushPacket pkt drops => exact ⟨rfl, rfl⟩
  | pollTimers drops => exact ⟨(m.emitLoop_reports _ drops).1, m.emitLoop_results _ drops⟩
  | forceEmitAll drops => exact ⟨(m.emitLoop_reports _ drops).1, m.emitLoop_results _ drops⟩
  | flushAll =>
    refine ⟨rfl, ?_⟩
    simp only [step, flushAll, callReports, List.filterMap_map, List.map_nil,
      List.filterMap_eq_nil_iff]
    intro e _
    rfl
  | pollFlush =>
    have hquiet : ∀ e : FrameEntry, (e.flushWrite now).bind ManagerOutput.report = none := by
      intro e
      cases h : e.flushVerdict now <;> simp [FrameEntry.flushWrite, h, ManagerOutput.report]
    refine ⟨rfl, ?_⟩
    simp only [step, pollFlush_writes, callReports, List.filterMap_filterMap, hquiet,
      List.filterMap_none, List.map_nil]

theorem foldl_count (ds : List (FrameEntry × FrameState)) (stats : FrameStats) :
    ds.foldl (fun stats d => stats.count d.2) stats =
      { total := stats.total + ds.length
        complete := stats.complete + ds.countP (fun d => !decide (d.2 = .partialFrame))
        partialFrames := stats.partialFrames + ds.countP (fun d => d.2 = .partialFrame) } := by
  induction ds generalizing stats with
  | nil => simp
  | cons d ds ih =>
    rw [List.foldl_cons, ih]
    by_cases h : d.2 = .partialFrame
    · simp [FrameStats.count, h]
      omega
    · simp [FrameStats.count, h]
      omega

end FrameReassemblerManager

end HvFrame
