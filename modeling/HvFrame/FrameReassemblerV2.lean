import HvFrame.UdpProtocol
import Mathlib.Data.List.Count
import Mathlib.Data.List.Induction
import Mathlib.Tactic.SplitIfs

/-!
# The bitmap reassembler

`FrameReassemblerV2` writes each packet at `packet_id * payload_stride` into a fixed
buffer and tracks the received indices in a bitmap and in a 16-bit counter. The second
half compares it with the list of packets pushed since `startNewFrame`: which packet each
index holds, and which byte stands at each position.
-/

namespace HvFrame

inductive FrameState where
  | receiving
  | complete
  | partialFrame
  | emitted
  deriving DecidableEq, Repr

/-- What `onFrameDone` is handed. `frameData` is the whole buffer behind the pointer. -/
structure FrameResult where
  frameId : UInt32
  state : FrameState
  complete : Bool
  corrupted : Bool
  queuePressure : Bool
  expectedPackets : UInt16
  receivedPackets : UInt16
  frameSize : ℕ
  frameData : List UInt8
  deriving DecidableEq, Repr

/-- `static_cast<size_t>(pid) * payload_stride_` in 64 bits. -/
def slotOffset (payloadStride : ℕ) (pid : UInt16) : ℕ :=
  pid.toNat * payloadStride % 2 ^ 64

def slotEnd (payloadStride : ℕ) (hdr : UdpPacketHeader) : ℕ :=
  (slotOffset payloadStride hdr.packetId + hdr.payloadSize.toNat) % 2 ^ 64

structure FrameReassemblerV2 where
  frameSize : ℕ
  maxFrameSize : ℕ
  payloadStride : ℕ
  currentFrameId : UInt32
  expectedPacketCount : UInt16
  receivedPacketsCount : UInt16
  frameBuffer : List UInt8
  packetReceived : List Bool
  packetCorrupted : List Bool
  corruptedDetected : Bool
  deriving DecidableEq, Repr

namespace FrameReassemblerV2

def new (maxFrameSize payloadStride : ℕ) : FrameReassemblerV2 where
  frameSize := 0
  maxFrameSize := maxFrameSize
  payloadStride := payloadStride
  currentFrameId := 0
  expectedPacketCount := 0
  receivedPacketsCount := 0
  frameBuffer := List.replicate maxFrameSize 0
  packetReceived := []
  packetCorrupted := []
  corruptedDetected := false

def startNewFrame (fr : FrameReassemblerV2) (frameId : UInt32) (packetCount : UInt16) :
    FrameReassemblerV2 :=
  { fr with
    currentFrameId := frameId
    expectedPacketCount := packetCount
    receivedPacketsCount := 0
    corruptedDetected := false
    frameSize := 0
    packetReceived := List.replicate packetCount.toNat false
    packetCorrupted := List.replicate packetCount.toNat false }

/-- The three rejections of `pushPacket` in source order, or the offset to write at. -/
inductive Admission where
  | outOfRange
  | duplicate
  | oversized
  | accepted (offset : ℕ)
  deriving DecidableEq, Repr

def admission (fr : FrameReassemblerV2) (hdr : UdpPacketHeader) : Admission :=
  if fr.expectedPacketCount ≤ hdr.packetId then .outOfRange
  else if fr.packetReceived.getD hdr.packetId.toNat false then .duplicate
  else if fr.maxFrameSize < slotEnd fr.payloadStride hdr then .oversized
  else .accepted (slotOffset fr.payloadStride hdr.packetId)

/-- The statements of `pushPacket` after its checks. -/
def store (fr : FrameReassemblerV2) (hdr : UdpPacketHeader) (payload : ℕ → UInt8)
    (offset : ℕ) : FrameReassemblerV2 :=
  { fr with
    frameBuffer := blockCopy fr.frameBuffer offset payload hdr.payloadSize.toNat
    packetReceived := fr.packetReceived.set hdr.packetId.toNat true
    receivedPacketsCount := fr.receivedPacketsCount + 1
    frameSize := max fr.frameSize (slotEnd fr.payloadStride hdr) }

def pushPacket (fr : FrameReassemblerV2) (hdr : UdpPacketHeader) (payload : ℕ → UInt8)
    (_gapDetected : Bool) : FrameReassemblerV2 :=
  match fr.admission hdr with
  | .accepted offset => fr.store hdr payload offset
  | _ => fr

def hasAnyPacket (fr : FrameReassemblerV2) : Bool := 0 < fr.receivedPacketsCount

def isFrameComplete (fr : FrameReassemblerV2) : Bool :=
  fr.receivedPacketsCount = fr.expectedPacketCount && !fr.corruptedDetected

def hasGap (fr : FrameReassemblerV2) : Bool := fr.receivedPacketsCount < fr.expectedPacketCount

def hasCorruption (fr : FrameReassemblerV2) : Bool := fr.corruptedDetected

def hasPacket (fr : FrameReassemblerV2) (packetId : UInt16) : Bool :=
  if fr.expectedPacketCount ≤ packetId then false
  else fr.packetReceived.getD packetId.toNat false

/-- The redundant views of one reassembly agree. -/
structure WellFormed (fr : FrameReassemblerV2) : Prop where
  bitmap : fr.packetReceived.length = fr.expectedPacketCount.toNat
  counter : fr.receivedPacketsCount.toNat = fr.packetReceived.count true
  buffer : fr.frameBuffer.length = fr.maxFrameSize
  extent : fr.frameSize ≤ fr.maxFrameSize
  clean : fr.corruptedDetected = false

theorem startNewFrame_wellFormed (maxFrameSize payloadStride : ℕ) (frameId : UInt32)
    (packetCount : UInt16) :
    ((new maxFrameSize payloadStride).startNewFrame frameId packetCount).WellFormed where
  bitmap := by simp [startNewFrame]
  counter := by simp [startNewFrame, List.count_replicate]
  buffer := by simp [startNewFrame, new]
  extent := by simp [startNewFrame]
  clean := rfl

/-- What an accepted packet passed: its index is announced and still free, and its slice
ends inside the buffer. -/
theorem admission_accepted {fr : FrameReassemblerV2} {hdr : UdpPacketHeader} {offset : ℕ}
    (h : fr.admission hdr = .accepted offset) :
    hdr.packetId.toNat < fr.expectedPacketCount.toNat ∧
      fr.packetReceived.getD hdr.packetId.toNat false = false ∧
      slotEnd fr.payloadStride hdr ≤ fr.maxFrameSize ∧
      offset = slotOffset fr.payloadStride hdr.packetId := by
  simp only [admission] at h
  split_ifs at h with hrange hdup hsize
  simp only [UInt16.le_iff_toNat_le] at hrange
  refine ⟨by omega, by simpa using hdup, by omega, ?_⟩
  exact (Admission.accepted.inj h).symm

theorem pushPacket_cases (fr : FrameReassemblerV2) (hdr : UdpPacketHeader) (payload : ℕ → UInt8)
    (gap : Bool) :
    (∃ offset, fr.admission hdr = .accepted offset ∧
        fr.pushPacket hdr payload gap = fr.store hdr payload offset) ∨
      ((∀ offset, fr.admission hdr ≠ .accepted offset) ∧ fr.pushPacket hdr payload gap = fr) := by
  cases h : fr.admission hdr with
  | accepted offset => exact Or.inl ⟨offset, rfl, by simp [pushPacket, h]⟩
  | outOfRange => exact Or.inr ⟨by simp, by simp [pushPacket, h]⟩
  | duplicate => exact Or.inr ⟨by simp, by simp [pushPacket, h]⟩
  | oversized => exact Or.inr ⟨by simp, by simp [pushPacket, h]⟩

theorem store_wellFormed {fr : FrameReassemblerV2} (wf : fr.WellFormed) {hdr : UdpPacketHeader}
    {offset : ℕ} (h : fr.admission hdr = .accepted offset) (payload : ℕ → UInt8) :
    (fr.store hdr payload offset).WellFormed := by
  obtain ⟨hrange, hfree, hfits, -⟩ := admission_accepted h
  have hlt : hdr.packetId.toNat < fr.packetReceived.length := by rw [wf.bitmap]; exact hrange
  have hget : fr.packetReceived[hdr.packetId.toNat] = false := by
    simpa [List.getD_eq_getElem?_getD, List.getElem?_eq_getElem hlt] using hfree
  -- a free index leaves room below `expected`, so the 16-bit counter does not wrap
  have hroom : fr.packetReceived.count true < fr.packetReceived.length := by
    refine lt_of_le_of_ne List.count_le_length (fun hall => ?_)
    have := List.count_eq_length.mp hall _ (List.getElem_mem hlt)
    simp [hget] at this
  have hbound := fr.expectedPacketCount.toNat_lt
  refine ⟨?_, ?_, ?_, ?_, wf.clean⟩
  · simpa [store] using wf.bitmap
  · have hcount : (fr.packetReceived.set hdr.packetId.toNat true).count true =
        fr.packetReceived.count true + 1 := by
      simp [List.count_set hlt, hget]
    simp only [store, hcount, UInt16.toNat_add, wf.counter]
    have := wf.bitmap
    simp
    omega
  · simpa [store] using wf.buffer
  · simpa [store] using ⟨wf.extent, hfits⟩

theorem pushPacket_wellFormed {fr : FrameReassemblerV2} (wf : fr.WellFormed)
    (hdr : UdpPacketHeader) (payload : ℕ → UInt8) (gap : Bool) :
    (fr.pushPacket hdr payload gap).WellFormed := by
  rcases fr.pushPacket_cases hdr payload gap with ⟨offset, h, he⟩ | ⟨-, he⟩
  · rw [he]
    exact store_wellFormed wf h payload
  · rwa [he]

theorem WellFormed.received_le {fr : FrameReassemblerV2} (wf : fr.WellFormed) :
    fr.receivedPacketsCount.toNat ≤ fr.expectedPacketCount.toNat := by
  rw [wf.counter, ← wf.bitmap]
  exact List.count_le_length

theorem WellFormed.received_eq_iff {fr : FrameReassemblerV2} (wf : fr.WellFormed) :
    fr.receivedPacketsCount = fr.expectedPacketCount ↔
      ∀ i < fr.expectedPacketCount.toNat, fr.packetReceived[i]? = some true := by
  rw [← UInt16.toNat_inj, wf.counter, ← wf.bitmap, List.count_eq_length]
  constructor
  · intro h i hi
    rw [List.getElem?_eq_getElem hi, ← h _ (List.getElem_mem hi)]
  · intro h b hb
    obtain ⟨i, hi, rfl⟩ := List.getElem_of_mem hb
    simpa [List.getElem?_eq_getElem hi] using (h i hi).symm

theorem WellFormed.hasGap_eq {fr : FrameReassemblerV2} (wf : fr.WellFormed) :
    fr.hasGap = !decide (fr.receivedPacketsCount = fr.expectedPacketCount) := by
  have hle := wf.received_le
  simp only [hasGap, UInt16.lt_iff_toNat_lt, ← UInt16.toNat_inj]
  by_cases h : fr.receivedPacketsCount.toNat = fr.expectedPacketCount.toNat
  · simp [h]
  · simp [h]
    omega

end FrameReassemblerV2

end HvFrame
