import HvFrame.FrameDelivery
import HvFrame.PlainRefinement

/-!
# Frames with losses

A fresh entry that is given any of a frame's packets, in any order and any number of times,
shows exactly what has been delivered and fits: the sender's bytes under the indices received,
zeros under the missing ones, and a size that ends with the highest index received.
-/

namespace HvFrame

open UdpSender

def UdpSender.sliceEnd (frame : List UInt8) (pid : UInt16) : ℕ :=
  min ((pid.toNat + 1) * maxUdpPayload) frame.length

/-- The index is one of the frame's, it was delivered, and its slice ends inside the buffer. -/
def ReceivedIndex (maxFrameSize : ℕ) (frame : List UInt8) (ps : List RxPacket) (pid : UInt16) :
    Prop :=
  pid < packetCount frame ∧ (∃ p ∈ ps, p.hdr.packetId = pid) ∧ sliceEnd frame pid ≤ maxFrameSize

instance (maxFrameSize : ℕ) (frame : List UInt8) (ps : List RxPacket) (pid : UInt16) :
    Decidable (ReceivedIndex maxFrameSize frame ps pid) :=
  inferInstanceAs (Decidable (_ ∧ _ ∧ _))

/-- The entry shows what was received of the frame. -/
structure ShowsReceived (maxFrameSize : ℕ) (frame : List UInt8) (ps : List RxPacket)
    (e : FrameEntry) : Prop where
  bits : ∀ pid, e.reassembler.hasPacket pid = true ↔ ReceivedIndex maxFrameSize frame ps pid
  counter : e.reassembler.receivedPacketsCount.toNat =
    (List.range (packetCount frame).toNat).countP (fun i =>
      ReceivedIndex maxFrameSize frame ps (UInt16.ofNat i))
  size : (e.reassembler.frameSize = 0 ∧ ∀ pid, ¬ ReceivedIndex maxFrameSize frame ps pid) ∨
    ∃ pid, ReceivedIndex maxFrameSize frame ps pid ∧
      (∀ pid', ReceivedIndex maxFrameSize frame ps pid' → pid' ≤ pid) ∧
      e.reassembler.frameSize = sliceEnd frame pid
  bytes : ∀ pos < e.reassembler.frameSize, e.reassembler.frameBuffer[pos]? =
    if ReceivedIndex maxFrameSize frame ps (UInt16.ofNat (pos / maxUdpPayload)) then frame[pos]?
    else some 0
  emitted : ∀ state drops, (e.result state drops).complete = true ↔
    ∀ pid < packetCount frame, ReceivedIndex maxFrameSize frame ps pid
  made : ∀ state, (e.reassembler.makeResult state).complete = true ↔
    ∀ pid < packetCount frame, ReceivedIndex maxFrameSize frame ps pid

variable {maxFrameSize : ℕ} {frameId : UInt32} {frame : List UInt8} {ps : List RxPacket}
variable {pid : UInt16}

/-- An index holds the sender's packet exactly if it was received. -/
theorem storedPacket_sent (maxFrameSize : ℕ)
    (hsent : ∀ p ∈ ps, p ∈ receivedPackets (frameDatagrams frameId frame)) (pid : UInt16) :
    storedPacket maxFrameSize maxUdpPayload (packetCount frame) ps pid.toNat =
      if ReceivedIndex maxFrameSize frame ps pid then some (packet frameId frame pid)
      else none := by
  have hfits : ∀ p ∈ ps, pid < packetCount frame →
      (FitsAt maxFrameSize maxUdpPayload pid.toNat p ↔
        p.hdr.packetId = pid ∧ sliceEnd frame pid ≤ maxFrameSize) := by
    intro p hp hpid
    obtain ⟨pid', -, rfl⟩ := mem_receivedPackets_frameDatagrams.mp (hsent p hp)
    have hindex : (packet frameId frame pid').hdr.packetId = pid' := rfl
    rw [FitsAt, hindex, UInt16.toNat_inj]
    refine and_congr_right (fun heq => ?_)
    rw [heq, sliceEnd, ← slotEnd_eq_min hpid frameId]
    rfl
  have hsome : (storedPacket maxFrameSize maxUdpPayload (packetCount frame) ps pid.toNat).isSome =
      true ↔ ReceivedIndex maxFrameSize frame ps pid := by
    rw [storedPacket_isSome_iff, ← UInt16.lt_iff_toNat_lt, ReceivedIndex]
    refine and_congr_right (fun hpid => ?_)
    constructor
    · rintro ⟨p, hp, hp'⟩
      obtain ⟨hid, hend⟩ := (hfits p hp hpid).mp hp'
      exact ⟨⟨p, hp, hid⟩, hend⟩
    · rintro ⟨⟨p, hp, hid⟩, hend⟩
      exact ⟨p, hp, (hfits p hp hpid).mpr ⟨hid, hend⟩⟩
  split_ifs with hreceived
  · obtain ⟨p, hp⟩ := Option.isSome_iff_exists.mp (hsome.mpr hreceived)
    rw [hp, stored_sent hp (hsent p (storedPacket_some hp).2.1)]
  · rwa [← hsome, Option.not_isSome_iff_eq_none] at hreceived

theorem sliceEnd_lt {pid pid' : UInt16} (h : pid < pid') (hpid' : pid' < packetCount frame) :
    sliceEnd frame pid < sliceEnd frame pid' := by
  have hlt : pid.toNat < pid'.toNat := UInt16.lt_iff_toNat_lt.mp h
  have hoffset := offset_lt hpid'
  simp only [sliceEnd, maxUdpPayload] at hoffset ⊢
  omega

theorem sliceEnd_pos (h : pid < packetCount frame) : 0 < sliceEnd frame pid := by
  have hoffset := offset_lt h
  simp only [sliceEnd, maxUdpPayload] at hoffset ⊢
  omega

section Reflected

variable {fr : FrameReassemblerV2}

theorem hasPacket_of_reflects
    (h : fr.Reflects maxFrameSize maxUdpPayload frameId (packetCount frame) ps)
    (hsent : ∀ p ∈ ps, p ∈ receivedPackets (frameDatagrams frameId frame)) (pid : UInt16) :
    fr.hasPacket pid = true ↔ ReceivedIndex maxFrameSize frame ps pid := by
  rw [h.hasPacket_iff, storedPacket_sent maxFrameSize hsent]
  split_ifs with hreceived <;> simp [hreceived]

theorem complete_of_reflects
    (h : fr.Reflects maxFrameSize maxUdpPayload frameId (packetCount frame) ps)
    (hsent : ∀ p ∈ ps, p ∈ receivedPackets (frameDatagrams frameId frame)) :
    fr.receivedPacketsCount = fr.expectedPacketCount ↔
      ∀ pid < packetCount frame, ReceivedIndex maxFrameSize frame ps pid := by
  rw [h.complete_iff, ← holdsFrame_iff (fun i p hp => hsent p (storedPacket_some hp).2.1)]
  refine forall₂_congr (fun pid _ => ?_)
  rw [storedPacket_sent maxFrameSize hsent]
  split_ifs with hreceived <;> simp [hreceived]

theorem size_of_reflects
    (h : fr.Reflects maxFrameSize maxUdpPayload frameId (packetCount frame) ps)
    (hsent : ∀ p ∈ ps, p ∈ receivedPackets (frameDatagrams frameId frame)) :
    (fr.frameSize = 0 ∧ ∀ pid, ¬ ReceivedIndex maxFrameSize frame ps pid) ∨
      ∃ pid, ReceivedIndex maxFrameSize frame ps pid ∧
        (∀ pid', ReceivedIndex maxFrameSize frame ps pid' → pid' ≤ pid) ∧
        fr.frameSize = sliceEnd frame pid := by
  have hcovers : ∀ pid, ReceivedIndex maxFrameSize frame ps pid →
      sliceEnd frame pid ≤ fr.frameSize := by
    intro pid hpid
    have hstored := storedPacket_sent maxFrameSize hsent pid
    rw [if_pos hpid] at hstored
    have hend := h.covers _ _ hstored
    rwa [packet, slotEnd_eq_min hpid.1] at hend
  rcases h.reached with hzero | ⟨i, p, hp, hsize⟩
  · refine Or.inl ⟨hzero, fun pid hpid => ?_⟩
    have hpos := sliceEnd_pos hpid.1
    have hle := hcovers pid hpid
    omega
  · obtain ⟨-, hmem, hindex, -⟩ := storedPacket_some hp
    obtain ⟨pid, hpid, rfl⟩ := mem_receivedPackets_frameDatagrams.mp (hsent p hmem)
    obtain rfl : pid.toNat = i := hindex
    have hreceived : ReceivedIndex maxFrameSize frame ps pid := by
      by_contra hnot
      rw [storedPacket_sent maxFrameSize hsent, if_neg hnot] at hp
      simp at hp
    rw [packet, slotEnd_eq_min hpid] at hsize
    refine Or.inr ⟨pid, hreceived, fun pid' hpid' => ?_, hsize⟩
    by_contra hlater
    have hlt := sliceEnd_lt (not_le.mp hlater) hpid'.1
    have hle := hcovers pid' hpid'
    rw [hsize] at hle
    exact absurd hle (not_le.mpr hlt)

theorem counter_of_reflects
    (h : fr.Reflects maxFrameSize maxUdpPayload frameId (packetCount frame) ps)
    (hsent : ∀ p ∈ ps, p ∈ receivedPackets (frameDatagrams frameId frame)) :
    fr.receivedPacketsCount.toNat = (List.range (packetCount frame).toNat).countP (fun i =>
      ReceivedIndex maxFrameSize frame ps (UInt16.ofNat i)) := by
  have hbits : fr.packetReceived = (List.range (packetCount frame).toNat).map (fun i =>
      decide (ReceivedIndex maxFrameSize frame ps (UInt16.ofNat i))) := by
    refine List.ext_getElem? (fun i => ?_)
    rcases Nat.lt_or_ge i (packetCount frame).toNat with hi | hi
    · have hstored := storedPacket_sent maxFrameSize hsent (UInt16.ofNat i)
      rw [index_toNat hi] at hstored
      rw [h.bits i hi, hstored, List.getElem?_map, List.getElem?_range hi, Option.map_some]
      split_ifs with hreceived <;> simp [hreceived]
    · rw [List.getElem?_eq_none (by rw [h.wellFormed.bitmap, h.expected]; exact hi),
        List.getElem?_eq_none (by simpa using hi)]
  rw [h.wellFormed.counter, hbits, List.count_eq_countP, List.countP_map]
  refine List.countP_congr (fun i _ => ?_)
  simp

theorem bytes_of_reflects
    (h : fr.Reflects maxFrameSize maxUdpPayload frameId (packetCount frame) ps)
    (hsent : ∀ p ∈ ps, p ∈ receivedPackets (frameDatagrams frameId frame)) {pos : ℕ}
    (hpos : pos < fr.frameSize) :
    some (contentByte maxUdpPayload
        (storedPacket maxFrameSize maxUdpPayload (packetCount frame) ps) pos) =
      if ReceivedIndex maxFrameSize frame ps (UInt16.ofNat (pos / maxUdpPayload)) then frame[pos]?
      else some 0 := by
  rcases size_of_reflects h hsent with ⟨hzero, -⟩ | ⟨pid, hpid, -, hsize⟩
  · omega
  · have hdiv := Nat.div_add_mod pos maxUdpPayload
    have hlast : pid.toNat < (packetCount frame).toNat := UInt16.lt_iff_toNat_lt.mp hpid.1
    rw [hsize, sliceEnd] at hpos
    have hlen : pos < frame.length := by omega
    have hslot : pos / maxUdpPayload < (packetCount frame).toNat := by
      simp only [maxUdpPayload] at hpos hdiv ⊢
      omega
    have htoNat := index_toNat hslot
    have hstored := storedPacket_sent maxFrameSize hsent (UInt16.ofNat (pos / maxUdpPayload))
    rw [htoNat] at hstored
    split_ifs at hstored ⊢ with hreceived
    · rw [contentByte_sent hlen htoNat hstored, List.getElem?_eq_getElem hlen]
    · rw [contentByte, hstored]

end Reflected

theorem showsReceived_of_entryOf {a : Arrival} {as : List Arrival} {e : FrameEntry}
    (he : entryOf maxFrameSize maxUdpPayload (a :: as) = some e)
    (hsent : ∀ b ∈ a :: as, b.pkt ∈ receivedPackets (frameDatagrams frameId frame)) :
    ShowsReceived maxFrameSize frame ((a :: as).map Arrival.pkt) e := by
  obtain ⟨pid, -, hfirst⟩ :=
    mem_receivedPackets_frameDatagrams.mp (hsent a List.mem_cons_self)
  have hid : a.pkt.hdr.frameId = frameId := by rw [hfirst]; rfl
  have hcount : a.pkt.hdr.packetCount = packetCount frame := by rw [hfirst]; rfl
  have href := entryOf_reflects he
  rw [hid, hcount] at href
  have hsent' : ∀ p ∈ (a :: as).map Arrival.pkt,
      p ∈ receivedPackets (frameDatagrams frameId frame) := by
    intro p hp
    obtain ⟨b, hb, rfl⟩ := List.mem_map.mp hp
    exact hsent b hb
  have hslot : ∀ p ∈ (a :: as).map Arrival.pkt, p.hdr.payloadSize.toNat ≤ maxUdpPayload := by
    intro p hp
    obtain ⟨pid, -, rfl⟩ := mem_receivedPackets_frameDatagrams.mp (hsent' p hp)
    exact (payloadSize_toNat frameId frame pid).trans_le (packetSize_le frame pid)
  have hcomplete := complete_of_reflects href hsent'
  refine ⟨hasPacket_of_reflects href hsent', counter_of_reflects href hsent',
    size_of_reflects href hsent', fun pos hpos => ?_, fun state drops => ?_, fun state => ?_⟩
  · rw [← bytes_of_reflects href hsent' hpos, ← hcount]
    have hmax := href.wellFormed.extent
    rw [href.maxSize] at hmax
    obtain rfl := Option.some.inj he
    exact FrameReassemblerV2.frameBuffer_pushAll (by decide) (by decide) maxFrameSize
      a.pkt.hdr.frameId a.pkt.hdr.packetCount _ hslot pos (by omega)
  · rw [← hcomplete, FrameEntry.result, FrameEntry.fullyReceived, decide_eq_true_iff]
  · rw [← hcomplete, FrameReassemblerV2.makeResult, FrameReassemblerV2.isFrameComplete,
      href.wellFormed.clean]
    simp

/-- The packets of one frame, in any order and number, given to a manager that has no entry of
this frame: its new entry shows what was received of it. -/
theorem showsReceived_of_pushes (maxFrameSize : ℕ) (before : List TimedCall) {js : List Arrival}
    (hfree : (FrameReassemblerManager.machine.state
      (FrameReassemblerManager.new maxFrameSize maxUdpPayload) before).frames.find? frameId = none)
    (hne : js ≠ [])
    (hsent : ∀ a ∈ js, a.pkt ∈ receivedPackets (frameDatagrams frameId frame)) :
    ∃ e, (FrameReassemblerManager.machine.state
        (FrameReassemblerManager.new maxFrameSize maxUdpPayload)
        (before ++ js.map Arrival.call)).frames.find? frameId = some e ∧
      ShowsReceived maxFrameSize frame (js.map Arrival.pkt) e := by
  rw [FrameReassemblerManager.find?_eq_entryOf, entryOf_eq_none] at hfree
  have hid : ∀ a ∈ js, a.pkt.hdr.frameId = frameId := fun a ha =>
    frameId_of_mem_receivedPackets (hsent a ha)
  rw [FrameReassemblerManager.find?_eq_entryOf, journal_pushes hfree hid]
  cases js with
  | nil => exact absurd rfl hne
  | cons a as => exact ⟨_, rfl, showsReceived_of_entryOf rfl hsent⟩

def secondTwice : List Arrival := List.replicate 2 ⟨packet 1 twoPacketFrame 1, 0, 0⟩

theorem showsReceived_of_secondTwice :
    ∃ e, (FrameReassemblerManager.machine.state
        (FrameReassemblerManager.new 4096 maxUdpPayload)
        ([] ++ secondTwice.map Arrival.call)).frames.find? 1 = some e ∧
      ShowsReceived 4096 twoPacketFrame (secondTwice.map Arrival.pkt) e := by
  refine showsReceived_of_pushes 4096 [] rfl (List.cons_ne_nil _ _) (fun a ha => ?_)
  rw [List.eq_of_mem_replicate ha]
  exact packet_mem_two length_twoPacketFrame (by decide)

end HvFrame
