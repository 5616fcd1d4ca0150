import HvFrame.WriteOrder

/-!
# The redundant views of a reassembly

The bitmap, the counter and the size are updated by separate statements and reset by two
functions that do not reset the same fields: `startNewFrame` resets the size, `reset` does not.
Two history variables say what each of them stands for.
-/

namespace HvFrame

namespace FrameReassemblerV2

/-- The packets accepted since the last `startNewFrame` or `reset`. -/
def acceptedSinceClear (fr : FrameReassemblerV2) (c : ReassemblerCall) (ps : List RxPacket) :
    List RxPacket :=
  match c with
  | .startNewFrame _ _ => []
  | .reset => []
  | .pushPacket pkt => ps ++ if fr.accepts pkt then [pkt] else []
  | .makeResult _ => ps

def acceptedSinceStart (fr : FrameReassemblerV2) (c : ReassemblerCall) (ps : List RxPacket) :
    List RxPacket :=
  match c with
  | .startNewFrame _ _ => []
  | .pushPacket pkt => ps ++ if fr.accepts pkt then [pkt] else []
  | .reset => ps
  | .makeResult _ => ps

def payloadEnd (p : RxPacket) : ℕ :=
  p.hdr.packetId.toNat * Receiver.payloadStride + p.hdr.payloadSize.toNat

/-- The views of the reassembly agree with each other and with the accepted packets. -/
structure ViewsAgree (maxFrameSize : ℕ) (fr : FrameReassemblerV2)
    (sinceClear sinceStart : List RxPacket) : Prop where
  bitmap : fr.packetReceived.length = fr.expectedPacketCount.toNat
  counter : fr.receivedPacketsCount.toNat = fr.packetReceived.count true
  bounded : fr.receivedPacketsCount ≤ fr.expectedPacketCount
  bits : ∀ i, fr.packetReceived[i]? = some true ↔ ∃ p ∈ sinceClear, p.hdr.packetId.toNat = i
  once : DistinctIds sinceClear
  size : fr.frameSize = (sinceStart.map payloadEnd).foldl max 0
  extent : fr.frameSize ≤ maxFrameSize
  offsets : ∀ p : RxPacket,
    slotOffset fr.payloadStride p.hdr.packetId = p.hdr.packetId.toNat * Receiver.payloadStride ∧
      slotEnd fr.payloadStride p.hdr = payloadEnd p
  gap : fr.hasGap = !fr.isFrameComplete
  rejected : ∀ p : RxPacket, (∀ offset, fr.admission p.hdr ≠ .accepted offset) →
    fr.pushPacket p.hdr p.payload p.gapBefore = fr

variable {maxFrameSize payloadStride : ℕ} {fr : FrameReassemblerV2} {ps : List RxPacket}

structure ShowsBits (fr : FrameReassemblerV2) (ps : List RxPacket) : Prop where
  bits : ∀ i, fr.packetReceived[i]? = some true ↔ ∃ p ∈ ps, p.hdr.packetId.toNat = i
  once : DistinctIds ps

theorem showsBits_new (maxFrameSize payloadStride : ℕ) :
    ShowsBits (new maxFrameSize payloadStride) [] where
  bits i := by simp [new]
  once := List.nodup_nil

theorem ShowsBits.store (h : ShowsBits fr ps) (wf : fr.WellFormed) {p : RxPacket} {offset : ℕ}
    (hacc : fr.admission p.hdr = .accepted offset) :
    ShowsBits (fr.store p.hdr p.payload offset) (ps ++ [p]) := by
  obtain ⟨hrange, hfree, -, -⟩ := admission_accepted hacc
  have hlt : p.hdr.packetId.toNat < fr.packetReceived.length := by
    rw [wf.bitmap]
    exact hrange
  have hnew : ∀ q ∈ ps, q.hdr.packetId ≠ p.hdr.packetId := by
    intro q hq hid
    have hbit := (h.bits p.hdr.packetId.toNat).mpr ⟨q, hq, congrArg UInt16.toNat hid⟩
    rw [List.getD_eq_getElem?_getD, hbit] at hfree
    cases hfree
  refine ⟨fun i => ?_, ?_⟩
  · have hset : (fr.store p.hdr p.payload offset).packetReceived[i]? =
        (fr.packetReceived.set p.hdr.packetId.toNat true)[i]? := rfl
    rw [hset]
    by_cases hi : p.hdr.packetId.toNat = i
    · rw [← hi, List.getElem?_set_self hlt]
      exact iff_of_true rfl ⟨p, List.mem_append_right _ List.mem_cons_self, rfl⟩
    · rw [List.getElem?_set_ne hi, h.bits]
      constructor
      · rintro ⟨q, hq, hid⟩
        exact ⟨q, List.mem_append_left _ hq, hid⟩
      · rintro ⟨q, hq, hid⟩
        rcases List.mem_append.mp hq with hq | hq
        · exact ⟨q, hq, hid⟩
        · rw [List.mem_singleton.mp hq] at hid
          exact absurd hid hi
  · rw [DistinctIds, List.map_append, List.nodup_append]
    refine ⟨h.once, List.nodup_singleton _, ?_⟩
    intro a ha b hb
    obtain ⟨q, hq, rfl⟩ := List.mem_map.mp ha
    rw [List.map_singleton, List.mem_singleton] at hb
    rw [hb]
    exact hnew q hq

theorem pushPacket_of_accepts (fr : FrameReassemblerV2) (p : RxPacket) :
    (∃ offset, fr.accepts p = true ∧ fr.admission p.hdr = .accepted offset ∧
        fr.pushPacket p.hdr p.payload p.gapBefore = fr.store p.hdr p.payload offset) ∨
      (fr.accepts p = false ∧ fr.pushPacket p.hdr p.payload p.gapBefore = fr) := by
  rcases fr.pushPacket_cases p.hdr p.payload p.gapBefore with ⟨offset, hacc, he⟩ | ⟨hrej, he⟩
  · exact Or.inl ⟨offset, accepts_iff.mpr ⟨offset, hacc⟩, hacc, he⟩
  · refine Or.inr ⟨?_, he⟩
    rw [← Bool.not_eq_true, accepts_iff]
    rintro ⟨offset, hacc⟩
    exact hrej offset hacc

theorem ShowsBits.call (h : ShowsBits fr ps) (wf : fr.WellFormed) (c : ReassemblerCall) :
    ShowsBits (fr.call c).1 (fr.acceptedSinceClear c ps) := by
  cases c with
  | startNewFrame frameId packetCount =>
    refine ⟨fun i => ?_, List.nodup_nil⟩
    simp [FrameReassemblerV2.call, FrameReassemblerV2.startNewFrame, acceptedSinceClear,
      List.getElem?_replicate]
  | reset =>
    refine ⟨fun i => ?_, List.nodup_nil⟩
    simp [FrameReassemblerV2.call, FrameReassemblerV2.reset, acceptedSinceClear]
  | makeResult finalState => exact h
  | pushPacket p =>
    rcases fr.pushPacket_of_accepts p with ⟨offset, hyes, hacc, he⟩ | ⟨hno, he⟩
    · simpa [FrameReassemblerV2.call, acceptedSinceClear, he, hyes] using h.store wf hacc
    · simpa [FrameReassemblerV2.call, acceptedSinceClear, he, hno] using h

/-- The size is the end of the packet that reaches furthest. -/
theorem frameSize_call (hstride : fr.payloadStride = Receiver.payloadStride)
    (h : fr.frameSize = (ps.map payloadEnd).foldl max 0) (c : ReassemblerCall) :
    (fr.call c).1.frameSize = ((fr.acceptedSinceStart c ps).map payloadEnd).foldl max 0 := by
  cases c with
  | startNewFrame frameId packetCount => rfl
  | reset => exact h
  | makeResult finalState => exact h
  | pushPacket p =>
    rcases fr.pushPacket_of_accepts p with ⟨offset, hyes, -, he⟩ | ⟨hno, he⟩
    · have hend : slotEnd fr.payloadStride p.hdr = payloadEnd p := by
        rw [hstride]
        exact slotEnd_eq (by decide) p.hdr
      simp [FrameReassemblerV2.call, acceptedSinceStart, he, hyes, FrameReassemblerV2.store, h,
        hend]
    · simpa [FrameReassemblerV2.call, acceptedSinceStart, he, hno] using h

/-- After any calls on a fresh reassembler with the receiver's stride, all its views agree. -/
theorem viewsAgree_run (maxFrameSize : ℕ) (history : List ReassemblerCall) :
    ViewsAgree maxFrameSize (machine.state (new maxFrameSize Receiver.payloadStride) history)
      (machine.past acceptedSinceClear (new maxFrameSize Receiver.payloadStride) [] history)
      (machine.past acceptedSinceStart (new maxFrameSize Receiver.payloadStride) [] history) := by
  have hrun := usable_run maxFrameSize Receiver.payloadStride
  have hshows := machine.past_invariant acceptedSinceClear (I := fun ps fr => ShowsBits fr ps)
    (G := fun _ _ => True) (showsBits_new maxFrameSize Receiver.payloadStride)
    (fun as c _ h => h.call (hrun as).wellFormed c) history (fun _ _ => trivial)
  have hsize := machine.past_invariant acceptedSinceStart
    (I := fun ps fr => fr.frameSize = (ps.map payloadEnd).foldl max 0) (G := fun _ _ => True)
    (s := new maxFrameSize Receiver.payloadStride) (p := []) rfl
    (fun as c _ h => frameSize_call (hrun as).stride h c) history (fun _ _ => trivial)
  obtain ⟨hwf, hmax, hstride⟩ := hrun history
  refine ⟨hwf.bitmap, hwf.counter, UInt16.le_iff_toNat_le.mpr hwf.received_le, hshows.bits,
    hshows.once, hsize, hwf.extent.trans hmax.le, fun p => ?_, ?_, fun p hrej => ?_⟩
  · rw [hstride]
    exact ⟨slotOffset_eq (by decide) p.hdr.packetId, slotEnd_eq (by decide) p.hdr⟩
  · rw [hwf.hasGap_eq, isFrameComplete, hwf.clean, Bool.not_false, Bool.and_true]
  · rcases pushPacket_cases _ p.hdr p.payload p.gapBefore with ⟨offset, hacc, -⟩ | ⟨-, he⟩
    · exact absurd hacc (hrej offset)
    · exact he

end FrameReassemblerV2

end HvFrame
