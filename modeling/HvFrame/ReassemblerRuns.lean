import HvFrame.FrameContents
import HvFrame.OutputMachines

/-!
# Runs of one reassembler

`FrameReassemblerV2` is written to be reused: a user calls `startNewFrame` again for the next
frame. `reset` and `startNewFrame` do not reset the same fields, and neither touches the buffer.
-/

namespace HvFrame

inductive ReassemblerCall where
  | startNewFrame (frameId : UInt32) (packetCount : UInt16)
  | pushPacket (pkt : RxPacket)
  | makeResult (finalState : FrameState)
  | reset

namespace FrameReassemblerV2

/-- The size and the second bitmap are left as they are. -/
def reset (fr : FrameReassemblerV2) : FrameReassemblerV2 :=
  { fr with
    expectedPacketCount := 0
    receivedPacketsCount := 0
    packetReceived := []
    corruptedDetected := false }

/-- `queue_pressure` keeps the value of `FrameResult r{}`. -/
def makeResult (fr : FrameReassemblerV2) (finalState : FrameState) : FrameResult where
  frameId := fr.currentFrameId
  state := finalState
  complete := fr.isFrameComplete
  corrupted := fr.hasGap || fr.hasCorruption
  queuePressure := false
  expectedPackets := fr.expectedPacketCount
  receivedPackets := fr.receivedPacketsCount
  frameSize := fr.frameSize
  frameData := fr.frameBuffer

def call (fr : FrameReassemblerV2) : ReassemblerCall → FrameReassemblerV2 × List FrameResult
  | .startNewFrame frameId packetCount => (fr.startNewFrame frameId packetCount, [])
  | .pushPacket pkt => (fr.pushPacket pkt.hdr pkt.payload pkt.gapBefore, [])
  | .makeResult finalState => (fr, [fr.makeResult finalState])
  | .reset => (fr.reset, [])

def machine : OutputMachine FrameReassemblerV2 ReassemblerCall FrameResult := ⟨call⟩

@[simp] theorem machine_step (fr : FrameReassemblerV2) (c : ReassemblerCall) :
    machine.step fr c = fr.call c := rfl

def accepts (fr : FrameReassemblerV2) (p : RxPacket) : Bool :=
  match fr.admission p.hdr with
  | .accepted _ => true
  | _ => false

/-- The packets of a list that are stored when they are pushed one after another. -/
def acceptedPackets : FrameReassemblerV2 → List RxPacket → List RxPacket
  | _, [] => []
  | fr, p :: ps =>
      (if fr.accepts p then [p] else []) ++
        acceptedPackets (fr.pushPacket p.hdr p.payload p.gapBefore) ps

/-- What every reassembler of the given sizes satisfies at any time. -/
structure Usable (maxFrameSize payloadStride : ℕ) (fr : FrameReassemblerV2) : Prop where
  wellFormed : fr.WellFormed
  maxSize : fr.maxFrameSize = maxFrameSize
  stride : fr.payloadStride = payloadStride

variable {maxFrameSize payloadStride : ℕ} {fr : FrameReassemblerV2}

theorem usable_new (maxFrameSize payloadStride : ℕ) :
    Usable maxFrameSize payloadStride (new maxFrameSize payloadStride) where
  wellFormed := ⟨rfl, rfl, by simp [new], Nat.zero_le _, rfl⟩
  maxSize := rfl
  stride := rfl

theorem Usable.startNewFrame (h : Usable maxFrameSize payloadStride fr) (frameId : UInt32)
    (packetCount : UInt16) :
    Usable maxFrameSize payloadStride (fr.startNewFrame frameId packetCount) where
  wellFormed := by
    refine ⟨?_, ?_, h.wellFormed.buffer, Nat.zero_le _, rfl⟩
    · simp [FrameReassemblerV2.startNewFrame]
    · simp [FrameReassemblerV2.startNewFrame, List.count_replicate]
  maxSize := h.maxSize
  stride := h.stride

theorem Usable.pushPacket (h : Usable maxFrameSize payloadStride fr) (hdr : UdpPacketHeader)
    (payload : ℕ → UInt8) (gap : Bool) :
    Usable maxFrameSize payloadStride (fr.pushPacket hdr payload gap) := by
  have hwf := pushPacket_wellFormed h.wellFormed hdr payload gap
  rcases fr.pushPacket_cases hdr payload gap with ⟨offset, -, he⟩ | ⟨-, he⟩
  · rw [he] at hwf ⊢
    exact ⟨hwf, h.maxSize, h.stride⟩
  · rwa [he]

theorem Usable.reset (h : Usable maxFrameSize payloadStride fr) :
    Usable maxFrameSize payloadStride fr.reset where
  wellFormed := ⟨rfl, rfl, h.wellFormed.buffer, h.wellFormed.extent, rfl⟩
  maxSize := h.maxSize
  stride := h.stride

theorem Usable.call (h : Usable maxFrameSize payloadStride fr) (c : ReassemblerCall) :
    Usable maxFrameSize payloadStride (fr.call c).1 := by
  cases c with
  | startNewFrame frameId packetCount => exact h.startNewFrame frameId packetCount
  | pushPacket pkt => exact h.pushPacket pkt.hdr pkt.payload pkt.gapBefore
  | makeResult finalState => exact h
  | reset => exact h.reset

theorem usable_run (maxFrameSize payloadStride : ℕ) (history : List ReassemblerCall) :
    Usable maxFrameSize payloadStride (machine.state (new maxFrameSize payloadStride) history) :=
  machine.state_invariant (usable_new maxFrameSize payloadStride) (fun _ c h => h.call c) history

/-- Whatever the reassembler held before, the counters, bits and size of a new frame reflect
the packets since. -/
theorem Usable.reflects_pushAll (h : Usable maxFrameSize payloadStride fr) (frameId : UInt32)
    (count : UInt16) (ps : List RxPacket) :
    Reflects maxFrameSize payloadStride frameId count
      ((fr.startNewFrame frameId count).pushAll ps) ps := by
  induction ps using List.reverseRecOn with
  | nil =>
    have husable := h.startNewFrame frameId count
    refine ⟨husable.wellFormed, husable.maxSize, husable.stride, rfl, rfl, ?_, ?_, Or.inl rfl⟩
    · intro i hi
      simp [pushAll, FrameReassemblerV2.startNewFrame, storedPacket, hi]
    · intro i p hp
      simp [storedPacket] at hp
  | append_singleton ps p ih =>
    rw [pushAll_concat]
    exact ih.pushPacket

theorem accepts_iff {p : RxPacket} :
    fr.accepts p = true ↔ ∃ offset, fr.admission p.hdr = .accepted offset := by
  cases h : fr.admission p.hdr <;> simp [accepts, h]

theorem acceptedPackets_concat (fr : FrameReassemblerV2) (ps : List RxPacket) (p : RxPacket) :
    fr.acceptedPackets (ps ++ [p]) =
      fr.acceptedPackets ps ++ if (fr.pushAll ps).accepts p then [p] else [] := by
  induction ps generalizing fr with
  | nil =>
    rw [List.nil_append, acceptedPackets, acceptedPackets, acceptedPackets, List.append_nil]
    rfl
  | cons q ps ih =>
    rw [List.cons_append, acceptedPackets, ih, acceptedPackets, List.append_assoc]
    rfl

theorem acceptedPackets_subset (fr : FrameReassemblerV2) (ps : List RxPacket) :
    fr.acceptedPackets ps ⊆ ps := by
  induction ps using List.reverseRecOn with
  | nil => exact List.nil_subset _
  | append_singleton ps p ih =>
    rw [acceptedPackets_concat]
    split_ifs
    · exact List.append_subset.mpr
        ⟨List.subset_append_of_subset_left _ ih, List.subset_append_right _ _⟩
    · rw [List.append_nil]
      exact List.subset_append_of_subset_left _ ih

theorem Usable.mem_acceptedPackets_iff (h : Usable maxFrameSize payloadStride fr)
    (frameId : UInt32) (count : UInt16) {ps : List RxPacket} {p : RxPacket} :
    p ∈ (fr.startNewFrame frameId count).acceptedPackets ps ↔
      storedPacket maxFrameSize payloadStride count ps p.hdr.packetId.toNat = some p := by
  induction ps using List.reverseRecOn with
  | nil => simp [acceptedPackets, storedPacket]
  | append_singleton ps q ih =>
    have href := h.reflects_pushAll frameId count ps
    rw [acceptedPackets_concat, List.mem_append, ih]
    cases hacc : ((fr.startNewFrame frameId count).pushAll ps).accepts q with
    | true =>
      obtain ⟨offset, hoffset⟩ := accepts_iff.mp hacc
      obtain ⟨hnone, hstored⟩ := href.storedPacket_accepted hoffset
      rw [hstored, if_pos rfl, List.mem_singleton]
      split_ifs with hid
      · rw [hid, hnone]
        simp [eq_comm]
      · refine or_iff_left (fun hpq => hid (hpq ▸ rfl))
    | false =>
      have hrej : ∀ offset, ((fr.startNewFrame frameId count).pushAll ps).admission q.hdr ≠
          .accepted offset := fun offset hoffset => by
        simp [accepts_iff.mpr ⟨offset, hoffset⟩] at hacc
      rw [href.storedPacket_rejected hrej]
      simp

end FrameReassemblerV2

end HvFrame
