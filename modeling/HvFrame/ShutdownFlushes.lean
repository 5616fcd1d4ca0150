import HvFrame.FrameJournals
import HvFrame.FrameWriter
import HvFrame.ReceivePath

/-!
# The two shutdown flushes

`flushAll` writes what is left with a fixed partial flag, `forceEmitAll` goes through
`emitFrame` and the callback of the worker, which computes the flag. The two agree exactly
in the states in which no live frame is fully received.
-/

namespace HvFrame

structure WriteCall where
  frame : List UInt8
  frameSize : ℕ
  isPartial : Bool
  deriving DecidableEq, Repr

/-- The call of `write_frame_to_file` an output of the manager leads to, for a frame that
holds a packet. -/
def ManagerOutput.heldWrite : ManagerOutput → Option WriteCall
  | .onFrameDone r =>
      if 0 < r.receivedPackets then some ⟨r.frameData, r.frameSize, r.state = .partialFrame⟩
      else none
  | .writeFrameToFile frame frameSize isPartial => some ⟨frame, frameSize, isPartial⟩

def WriteCall.files (fopen : String → Bool) (w : WriteCall) : List FileWrite :=
  writeFrameToFile fopen w.frame w.frameSize w.isPartial

def FrameEntry.write (entry : FrameEntry) (isPartial : Bool) : WriteCall :=
  ⟨entry.reassembler.frameBuffer, entry.reassembler.frameSize, isPartial⟩

namespace FrameReassemblerManager

def heldEntries (m : FrameReassemblerManager) : List (UInt32 × FrameEntry) :=
  m.frames.entries.filter (fun kv => kv.2.reassembler.hasAnyPacket)

/-- `flushAll` and `forceEmitAll` through the callback make the same writes, write a fully
received frame as a full one, and leave nothing behind. -/
structure FlushesAgree (m : FrameReassemblerManager) : Prop where
  writes : ∀ drops, m.flushAll.2.filterMap ManagerOutput.heldWrite =
    (m.forceEmitAll drops).2.filterMap ManagerOutput.heldWrite
  fullFrames : ∀ kv ∈ m.heldEntries, kv.2.fullyReceived = true →
    kv.2.write false ∈ m.flushAll.2.filterMap ManagerOutput.heldWrite ∧
      ∀ drops, kv.2.write false ∈ (m.forceEmitAll drops).2.filterMap ManagerOutput.heldWrite
  emptied : m.flushAll.1.frames = OrderedMap.empty ∧
    ∀ drops, (m.forceEmitAll drops).1.frames = OrderedMap.empty

def NoneFull (m : FrameReassemblerManager) : Prop :=
  ∀ kv ∈ m.heldEntries, kv.2.fullyReceived = false

variable (m : FrameReassemblerManager)

theorem flushAll_heldWrites :
    m.flushAll.2.filterMap ManagerOutput.heldWrite =
      m.heldEntries.map (fun kv => kv.2.write true) := by
  rw [flushAll, heldEntries, List.filterMap_map, ← List.filterMap_eq_map]
  rfl

theorem forceEmitAll_heldWrites (drops : ℕ) :
    (m.forceEmitAll drops).2.filterMap ManagerOutput.heldWrite =
      m.heldEntries.map (fun kv => kv.2.write !kv.2.fullyReceived) := by
  have hflag : ∀ e : FrameEntry, decide (e.forcedState = .partialFrame) = !e.fullyReceived := by
    intro e
    cases h : e.fullyReceived <;> simp [FrameEntry.forcedState, h]
  have hwrite : ∀ e : FrameEntry,
      (ManagerOutput.onFrameDone (e.result e.forcedState drops)).heldWrite =
        if e.reassembler.hasAnyPacket then some (e.write !e.fullyReceived) else none := by
    intro e
    have hheld : (ManagerOutput.onFrameDone (e.result e.forcedState drops)).heldWrite =
        if 0 < e.reassembler.receivedPacketsCount then
          some (e.write (decide (e.forcedState = .partialFrame)))
        else none := rfl
    rw [hheld, hflag]
    simp [FrameReassemblerV2.hasAnyPacket]
  rw [forceEmitAll, (m.emitLoop_reports _ drops).2, due, heldEntries, List.filterMap_map,
    List.filterMap_filterMap, ← List.filterMap_eq_map, List.filterMap_filter]
  refine List.filterMap_congr (fun kv _ => ?_)
  exact hwrite kv.2

theorem forceEmitAll_frames (drops : ℕ) :
    (m.forceEmitAll drops).1.frames = OrderedMap.empty := by
  refine OrderedMap.eq_of_entries ?_
  rw [forceEmitAll, emitLoop_entries]
  simp [OrderedMap.empty]

theorem heldWrites_eq_iff (drops : ℕ) :
    m.flushAll.2.filterMap ManagerOutput.heldWrite =
        (m.forceEmitAll drops).2.filterMap ManagerOutput.heldWrite ↔ m.NoneFull := by
  rw [flushAll_heldWrites, forceEmitAll_heldWrites, List.map_inj_left]
  refine forall₂_congr (fun kv _ => ?_)
  cases kv.2.fullyReceived <;> simp [FrameEntry.write]

/-- A timer poll just before the shutdown makes the two flushes agree. -/
theorem pollTimers_noneFull (drops : ℕ) (now : ℤ) : (m.pollTimers drops now).1.NoneFull := by
  intro kv hkv
  have hmem := List.mem_of_mem_filter hkv
  rw [pollTimers, emitLoop_entries] at hmem
  have hnone := List.of_mem_filter hmem
  cases hfull : kv.2.fullyReceived with
  | false => rfl
  | true => simp [FrameEntry.timerVerdict, hfull] at hnone

/-- In a reachable state the two flushes agree exactly if no live entry with a packet is fully
received. -/
theorem flushesAgree_iff (maxFrameSize payloadStride : ℕ) (calls : List TimedCall) :
    FlushesAgree (machine.state (new maxFrameSize payloadStride) calls) ↔
      NoneFull (machine.state (new maxFrameSize payloadStride) calls) := by
  generalize machine.state (new maxFrameSize payloadStride) calls = m
  constructor
  · exact fun h => (m.heldWrites_eq_iff 0).mp (h.writes 0)
  · intro h
    refine ⟨fun drops => (m.heldWrites_eq_iff drops).mpr h, fun kv hkv hfull => ?_, rfl,
      m.forceEmitAll_frames⟩
    rw [h kv hkv] at hfull
    exact absurd hfull (by decide)

def fullFrameRun : List TimedCall :=
  [⟨0, .pushPacket ⟨⟨1, 0, 1, 4⟩, fun _ => 7, false⟩ 0⟩]

/-- `flushAll` writes the full frame with the partial flag. -/
theorem not_flushesAgree :
    ¬ ∀ calls, FlushesAgree
      (machine.state (new Receiver.maxFrameSize Receiver.payloadStride) calls) := by
  intro h
  have hnone := (heldWrites_eq_iff _ 0).mp ((h fullFrameRun).writes 0)
  revert hnone
  rw [NoneFull]
  decide

end FrameReassemblerManager

end HvFrame
