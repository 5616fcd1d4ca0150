import HvFrame.WriteOrder

/-!
# Frames in a reused reassembler

`startNewFrame` resets every field that the reassembly reads, but not the buffer. Two
reassemblers with different pasts take the same decisions for a new frame, and differ in exactly
the bytes that no packet of the new frame writes.
-/

namespace HvFrame

/-- What a result shows: `frame_size` bytes behind the pointer. -/
def FrameResult.shown (r : FrameResult) : FrameResult :=
  { r with frameData := r.frameData.take r.frameSize }

/-- The position lies below the end of a stored packet, and no stored packet is written there. -/
def InGap (maxFrameSize payloadStride : ℕ) (count : UInt16) (ps : List RxPacket) (pos : ℕ) :
    Prop :=
  (∃ i p, storedPacket maxFrameSize payloadStride count ps i = some p ∧
    pos < slotEnd payloadStride p.hdr) ∧
  ∀ i p, storedPacket maxFrameSize payloadStride count ps i = some p →
    ¬ (p.slotWrite payloadStride).Covers pos

namespace FrameReassemblerV2

/-- The new frame is shown alike by both reassemblers. -/
def ShowsAlike (fr fr' : FrameReassemblerV2) (frameId : UInt32) (count : UInt16)
    (ps : List RxPacket) : Prop :=
  ∀ finalState,
    (((fr.startNewFrame frameId count).pushAll ps).makeResult finalState).shown =
      (((fr'.startNewFrame frameId count).pushAll ps).makeResult finalState).shown

def GapsAgree (maxFrameSize payloadStride : ℕ) (count : UInt16) (ps : List RxPacket)
    (fr fr' : FrameReassemblerV2) : Prop :=
  ∀ pos, InGap maxFrameSize payloadStride count ps pos →
    fr.frameBuffer[pos]? = fr'.frameBuffer[pos]?

variable {maxFrameSize payloadStride : ℕ} {frameId : UInt32} {count : UInt16}
variable {fr fr' : FrameReassemblerV2} {ps : List RxPacket}

theorem Reflects.lt_frameSize_iff (h : Reflects maxFrameSize payloadStride frameId count fr ps)
    {pos : ℕ} : pos < fr.frameSize ↔ ∃ i p,
      storedPacket maxFrameSize payloadStride count ps i = some p ∧
        pos < slotEnd payloadStride p.hdr := by
  constructor
  · intro hpos
    obtain ⟨i, p, hp, hsize⟩ := h.reached.resolve_left (by omega)
    exact ⟨i, p, hp, hsize ▸ hpos⟩
  · rintro ⟨i, p, hp, hpos⟩
    exact hpos.trans_le (h.covers i p hp)

theorem Usable.acceptedPackets_congr (h : Usable maxFrameSize payloadStride fr)
    (h' : Usable maxFrameSize payloadStride fr') (frameId : UInt32) (count : UInt16)
    (ps : List RxPacket) :
    (fr.startNewFrame frameId count).acceptedPackets ps =
      (fr'.startNewFrame frameId count).acceptedPackets ps := by
  induction ps using List.reverseRecOn with
  | nil => rfl
  | append_singleton ps p ih =>
    have haccepts : ((fr.startNewFrame frameId count).pushAll ps).accepts p =
        ((fr'.startNewFrame frameId count).pushAll ps).accepts p := by
      rw [Bool.eq_iff_iff, (h.reflects_pushAll frameId count ps).accepts_iff,
        (h'.reflects_pushAll frameId count ps).accepts_iff]
    rw [acceptedPackets_concat, acceptedPackets_concat, ih, haccepts]

theorem Usable.covered_iff (h : Usable maxFrameSize payloadStride fr) (frameId : UInt32)
    (count : UInt16) (ps : List RxPacket) (pos : ℕ) :
    (∃ w ∈ ((fr.startNewFrame frameId count).acceptedPackets ps).map
        (RxPacket.slotWrite payloadStride), w.Covers pos) ↔
      ∃ i p, storedPacket maxFrameSize payloadStride count ps i = some p ∧
        (p.slotWrite payloadStride).Covers pos := by
  constructor
  · rintro ⟨w, hw, hcovers⟩
    obtain ⟨p, hp, rfl⟩ := List.mem_map.mp hw
    exact ⟨_, p, (h.mem_acceptedPackets_iff frameId count).mp hp, hcovers⟩
  · rintro ⟨i, p, hp, hcovers⟩
    obtain ⟨-, -, hindex, -⟩ := storedPacket_some hp
    have hmem := (h.mem_acceptedPackets_iff frameId count).mpr (hindex ▸ hp)
    exact ⟨_, List.mem_map_of_mem hmem, hcovers⟩

theorem Usable.inGap_iff (h : Usable maxFrameSize payloadStride fr) (frameId : UInt32)
    (count : UInt16) (ps : List RxPacket) (pos : ℕ) :
    InGap maxFrameSize payloadStride count ps pos ↔
      pos < ((fr.startNewFrame frameId count).pushAll ps).frameSize ∧
        ∀ w ∈ ((fr.startNewFrame frameId count).acceptedPackets ps).map
          (RxPacket.slotWrite payloadStride), ¬ w.Covers pos := by
  have hcovered := (h.covered_iff frameId count ps pos).not
  simp only [not_exists, not_and] at hcovered
  rw [InGap, (h.reflects_pushAll frameId count ps).lt_frameSize_iff, hcovered]

/-- Outside the gaps both show what the packets wrote, inside them what was there before. -/
theorem Usable.bytes_eq_iff (h : Usable maxFrameSize payloadStride fr)
    (h' : Usable maxFrameSize payloadStride fr') (frameId : UInt32) (count : UInt16)
    (ps : List RxPacket) :
    (∀ pos < ((fr.startNewFrame frameId count).pushAll ps).frameSize,
      ((fr.startNewFrame frameId count).pushAll ps).frameBuffer[pos]? =
        ((fr'.startNewFrame frameId count).pushAll ps).frameBuffer[pos]?) ↔
      GapsAgree maxFrameSize payloadStride count ps fr fr' := by
  have href := h.reflects_pushAll frameId count ps
  have hgap := h.inGap_iff frameId count ps
  rw [h.frameBuffer_pushAll frameId count ps, h'.frameBuffer_pushAll frameId count ps,
    ← h.acceptedPackets_congr h' frameId count ps]
  set ws := ((fr.startNewFrame frameId count).acceptedPackets ps).map
    (RxPacket.slotWrite payloadStride)
  constructor
  · intro hbytes pos hpos
    obtain ⟨hlt, hout⟩ := (hgap pos).mp hpos
    have hbyte := hbytes pos hlt
    rwa [BlockWrite.getElem?_applyAll_of_not_covers _ hout,
      BlockWrite.getElem?_applyAll_of_not_covers _ hout] at hbyte
  · intro hagree pos hlt
    by_cases hin : ∃ w ∈ ws, w.Covers pos
    · have hmax : pos < maxFrameSize := by
        have hextent := href.wellFormed.extent
        rw [href.maxSize] at hextent
        omega
      refine BlockWrite.getElem?_applyAll_congr ?_ ?_ hin
      · rwa [h.wellFormed.buffer, h.maxSize]
      · rwa [h'.wellFormed.buffer, h'.maxSize]
    · have hout : ∀ w ∈ ws, ¬ w.Covers pos := fun w hw hcovers => hin ⟨w, hw, hcovers⟩
      rw [BlockWrite.getElem?_applyAll_of_not_covers _ hout,
        BlockWrite.getElem?_applyAll_of_not_covers _ hout]
      exact hagree pos ((hgap pos).mpr ⟨hlt, hout⟩)

/-- Everything but the bytes is a function of the packets of the new frame. -/
theorem Usable.shown_eq_iff (h : Usable maxFrameSize payloadStride fr)
    (h' : Usable maxFrameSize payloadStride fr') (frameId : UInt32) (count : UInt16)
    (ps : List RxPacket) (finalState : FrameState) :
    (((fr.startNewFrame frameId count).pushAll ps).makeResult finalState).shown =
        (((fr'.startNewFrame frameId count).pushAll ps).makeResult finalState).shown ↔
      GapsAgree maxFrameSize payloadStride count ps fr fr' := by
  have href := h.reflects_pushAll frameId count ps
  have href' := h'.reflects_pushAll frameId count ps
  obtain ⟨-, hreceived, hsize⟩ := href.counters_eq href' (fun _ => rfl)
  rw [← h.bytes_eq_iff h' frameId count ps]
  set fr₁ := (fr.startNewFrame frameId count).pushAll ps
  set fr₂ := (fr'.startNewFrame frameId count).pushAll ps
  rw [← take_eq_iff_getElem?, hsize]
  constructor
  · intro hshown
    have hdata : fr₁.frameBuffer.take fr₁.frameSize = fr₂.frameBuffer.take fr₂.frameSize :=
      congrArg FrameResult.frameData hshown
    rwa [hsize] at hdata
  · intro hdata
    simp only [makeResult, FrameResult.shown, isFrameComplete, hasGap, hasCorruption, href.id,
      href'.id, href.expected, href'.expected, href.wellFormed.clean, href'.wellFormed.clean,
      hreceived, hsize, hdata]

/-- Two reassemblers that have held any frames show a new frame alike exactly if their buffers
agree in its gaps. -/
theorem showsAlike_iff (maxFrameSize payloadStride : ℕ) (history history' : List ReassemblerCall)
    (frameId : UInt32) (count : UInt16) (ps : List RxPacket) :
    ShowsAlike (machine.state (new maxFrameSize payloadStride) history)
        (machine.state (new maxFrameSize payloadStride) history') frameId count ps ↔
      GapsAgree maxFrameSize payloadStride count ps
        (machine.state (new maxFrameSize payloadStride) history)
        (machine.state (new maxFrameSize payloadStride) history') := by
  have h := usable_run maxFrameSize payloadStride history
  have h' := usable_run maxFrameSize payloadStride history'
  constructor
  · exact fun halike => (h.shown_eq_iff h' frameId count ps .complete).mp (halike .complete)
  · exact fun hagree finalState => (h.shown_eq_iff h' frameId count ps finalState).mpr hagree

def oldPacket : RxPacket := { hdr := ⟨1, 0, 1, 1⟩, payload := fun _ => 7 }

def secondOnly : List RxPacket := [{ hdr := ⟨2, 1, 2, 1⟩, payload := fun _ => 9 }]

/-- The lost slot of frame 2 shows a byte of frame 1, and a zero in a fresh reassembler. -/
theorem not_showsAlike :
    ¬ ∀ (maxFrameSize payloadStride : ℕ) (history history' : List ReassemblerCall)
      (frameId : UInt32) (count : UInt16) (ps : List RxPacket),
      ShowsAlike (machine.state (new maxFrameSize payloadStride) history)
        (machine.state (new maxFrameSize payloadStride) history') frameId count ps := by
  intro h
  have husable := usable_new Receiver.maxFrameSize Receiver.payloadStride
  have hold := usable_run Receiver.maxFrameSize Receiver.payloadStride
    [.startNewFrame 1 1, .pushPacket oldPacket]
  have hagree := (hold.shown_eq_iff husable 2 2 secondOnly .partialFrame).mp
    (h Receiver.maxFrameSize Receiver.payloadStride _ [] 2 2 secondOnly .partialFrame)
  have hgap : InGap Receiver.maxFrameSize Receiver.payloadStride 2 secondOnly 0 := by
    refine ⟨⟨1, _, rfl, by decide⟩, fun i p hp hcovers => ?_⟩
    obtain ⟨-, hmem, -⟩ := storedPacket_some hp
    rw [List.mem_singleton.mp hmem] at hcovers
    exact absurd hcovers.1 (by decide)
  have hbyte := hagree 0 hgap
  have hshown : ((((new Receiver.maxFrameSize Receiver.payloadStride).startNewFrame 1 1).pushAll
      ([] ++ [oldPacket])).frameBuffer.take
        (((new Receiver.maxFrameSize Receiver.payloadStride).startNewFrame 1 1).pushAll
          ([] ++ [oldPacket])).frameSize)[0]? = some 7 :=
    husable.getElem?_last (by decide) 1 (by decide) (by decide) ⟨by decide, by decide⟩
  rw [List.getElem?_take] at hshown
  split_ifs at hshown
  have hfresh : (new Receiver.maxFrameSize Receiver.payloadStride).frameBuffer[0]? = some 0 := by
    rw [new, List.getElem?_replicate, if_pos (by decide)]
  exact absurd (hshown.symm.trans (hbyte.trans hfresh)) (by decide)

end FrameReassemblerV2

end HvFrame
