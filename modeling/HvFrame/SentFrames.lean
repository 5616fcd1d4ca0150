import HvFrame.FrameJournals
import HvFrame.UdpSender

/-!
# Reassembling what the sender sent

A frame of at most `65535 * maxUdpPayload` bytes is announced with its true packet count, its
slices cover it exactly, and a reassembly in which every announced index holds the sender's
packet of that index has the frame's size and its bytes.
-/

namespace HvFrame

namespace UdpSender

variable {frameId : UInt32} {frame : List UInt8} {pid : UInt16}

/-- Frames whose packet count fits its 16-bit field. -/
def Countable (frame : List UInt8) : Prop := frame.length ≤ 65535 * maxUdpPayload

instance (frame : List UInt8) : Decidable (Countable frame) :=
  inferInstanceAs (Decidable (_ ≤ _))

theorem countable_two (h : frame.length = maxUdpPayload + 1) : Countable frame := by
  rw [Countable, h]
  decide

theorem packetCount_toNat (h : Countable frame) :
    (packetCount frame).toNat = (frame.length + maxUdpPayload - 1) / maxUdpPayload := by
  rw [packetCount, UInt16.toNat_ofNat']
  refine Nat.mod_eq_of_lt ?_
  simp only [Countable, maxUdpPayload] at h ⊢
  omega

theorem slotEnd_header (frameId : UInt32) (frame : List UInt8) (pid : UInt16) :
    slotEnd maxUdpPayload (header frameId frame pid) =
      pid.toNat * maxUdpPayload + packetSize frame pid := by
  rw [FrameReassemblerV2.slotEnd_eq (by decide), payloadSize_toNat]
  rfl

theorem slotEnd_le (h : pid < packetCount frame) :
    slotEnd maxUdpPayload (header frameId frame pid) ≤ frame.length := by
  have hoffset := offset_lt h
  rw [slotEnd_header, packetSize]
  omega

theorem exists_last (hne : frame ≠ []) (h : Countable frame) :
    ∃ pid < packetCount frame, ∀ frameId : UInt32,
      slotEnd maxUdpPayload (header frameId frame pid) = frame.length := by
  have hpos := List.length_pos_of_ne_nil hne
  have hcount := packetCount_toNat h
  simp only [maxUdpPayload] at hcount
  have hlast : (packetCount frame).toNat - 1 < (packetCount frame).toNat := by omega
  refine ⟨UInt16.ofNat ((packetCount frame).toNat - 1), index_lt hlast, fun frameId => ?_⟩
  rw [slotEnd_header, packetSize, index_toNat hlast]
  simp only [maxUdpPayload]
  omega

end UdpSender

open UdpSender

/-- Every announced index holds the sender's packet of that index. -/
def HoldsFrame (maxFrameSize : ℕ) (frameId : UInt32) (frame : List UInt8) (ps : List RxPacket) :
    Prop :=
  ∀ pid < packetCount frame, storedPacket maxFrameSize maxUdpPayload (packetCount frame) ps
    pid.toNat = some (packet frameId frame pid)

variable {maxFrameSize : ℕ} {frameId : UInt32} {frame : List UInt8} {ps : List RxPacket}

theorem stored_sent {pid : UInt16} {p : RxPacket}
    (h : storedPacket maxFrameSize maxUdpPayload (packetCount frame) ps pid.toNat = some p)
    (hsent : p ∈ receivedPackets (frameDatagrams frameId frame)) :
    p = packet frameId frame pid := by
  obtain ⟨-, -, hindex, -⟩ := storedPacket_some h
  obtain ⟨pid', -, rfl⟩ := mem_receivedPackets_frameDatagrams.mp hsent
  obtain rfl : pid' = pid := UInt16.toNat_inj.mp hindex
  rfl

/-- When only the sender's packets are held, holding all of them means a full bitmap. -/
theorem holdsFrame_iff (hsent : ∀ i p,
      storedPacket maxFrameSize maxUdpPayload (packetCount frame) ps i = some p →
        p ∈ receivedPackets (frameDatagrams frameId frame)) :
    HoldsFrame maxFrameSize frameId frame ps ↔ ∀ i < (packetCount frame).toNat,
      (storedPacket maxFrameSize maxUdpPayload (packetCount frame) ps i).isSome := by
  constructor
  · intro h i hi
    have hheld := h _ (index_lt hi)
    rw [index_toNat hi] at hheld
    rw [hheld]
    rfl
  · intro h pid hpid
    obtain ⟨p, hp⟩ := Option.isSome_iff_exists.mp (h _ (UInt16.lt_iff_toNat_lt.mp hpid))
    rw [hp, stored_sent hp (hsent _ _ hp)]

theorem fullyReceived_iff_holdsFrame {j : List Arrival} {a : Arrival} {e : FrameEntry}
    (he : entryOf maxFrameSize maxUdpPayload (a :: j) = some e)
    (hopen : a.pkt.hdr.packetCount = packetCount frame)
    (hsent : ∀ i p, storedPacket maxFrameSize maxUdpPayload (packetCount frame)
      ((a :: j).map Arrival.pkt) i = some p →
        p ∈ receivedPackets (frameDatagrams frameId frame)) :
    e.fullyReceived = true ↔ HoldsFrame maxFrameSize frameId frame ((a :: j).map Arrival.pkt) := by
  have href := entryOf_reflects he
  rw [hopen] at href
  rw [holdsFrame_iff hsent, ← href.complete_iff, FrameEntry.fullyReceived, decide_eq_true_iff]

theorem HoldsFrame.stored (h : HoldsFrame maxFrameSize frameId frame ps) {i : ℕ} {p : RxPacket}
    (hp : storedPacket maxFrameSize maxUdpPayload (packetCount frame) ps i = some p) :
    ∃ pid < packetCount frame, p = packet frameId frame pid := by
  have hi := (storedPacket_some hp).1
  have hheld := h _ (index_lt hi)
  rw [index_toNat hi, hp] at hheld
  exact ⟨_, index_lt hi, Option.some.inj hheld⟩

theorem HoldsFrame.length_le (h : HoldsFrame maxFrameSize frameId frame ps) (hne : frame ≠ [])
    (hcount : Countable frame) : frame.length ≤ maxFrameSize := by
  obtain ⟨pid, hpid, hlast⟩ := exists_last hne hcount
  obtain ⟨-, -, -, hfits⟩ := storedPacket_some (h pid hpid)
  exact (hlast frameId).symm.trans_le hfits

theorem HoldsFrame.frameSize_eq (h : HoldsFrame maxFrameSize frameId frame ps) (hne : frame ≠ [])
    (hcount : Countable frame) {k : UInt32} {fr : FrameReassemblerV2}
    (href : fr.Reflects maxFrameSize maxUdpPayload k (packetCount frame) ps) :
    fr.frameSize = frame.length := by
  obtain ⟨pid, hpid, hlast⟩ := exists_last hne hcount
  have hge := href.covers _ _ (h pid hpid)
  rw [packet, hlast] at hge
  refine le_antisymm ?_ hge
  rcases href.reached with hzero | ⟨i, p, hp, hsize⟩
  · omega
  · obtain ⟨pid', hpid', rfl⟩ := h.stored hp
    rw [hsize]
    exact slotEnd_le hpid'

theorem contentByte_sent {stored : ℕ → Option RxPacket} {pid : UInt16} {pos : ℕ}
    (hpos : pos < frame.length) (hpid : pid.toNat = pos / maxUdpPayload)
    (hstored : stored (pos / maxUdpPayload) = some (packet frameId frame pid)) :
    contentByte maxUdpPayload stored pos = frame[pos] := by
  have hdiv := Nat.div_add_mod pos maxUdpPayload
  have hmod : pos % maxUdpPayload < maxUdpPayload := Nat.mod_lt _ (by decide)
  rw [Nat.mul_comm, ← hpid] at hdiv
  have hinside : pos % maxUdpPayload < packetSize frame pid := by
    rw [packetSize]
    omega
  have hbyte : (slice frame pid)[pos % maxUdpPayload]? = some frame[pos] := by
    rw [slice, List.getElem?_take_of_lt hinside, List.getElem?_drop, hdiv,
      List.getElem?_eq_getElem hpos]
  simp only [contentByte, hstored, packet, payloadSize_toNat, if_pos hinside,
    List.getD_eq_getElem?_getD, hbyte, Option.getD_some]

theorem HoldsFrame.contentByte_eq (h : HoldsFrame maxFrameSize frameId frame ps)
    (hcount : Countable frame) {pos : ℕ} (hpos : pos < frame.length) :
    contentByte maxUdpPayload
      (storedPacket maxFrameSize maxUdpPayload (packetCount frame) ps) pos = frame[pos] := by
  have hindex : pos / maxUdpPayload < (packetCount frame).toNat := by
    rw [packetCount_toNat hcount]
    simp only [maxUdpPayload]
    omega
  have hheld := h _ (index_lt hindex)
  rw [index_toNat hindex] at hheld
  exact contentByte_sent hpos (index_toNat hindex) hheld

/-- An entry in which every index holds the sender's packet shows the sender's frame. -/
theorem HoldsFrame.frameData_eq {j : List Arrival} {a : Arrival} {e : FrameEntry}
    (he : entryOf maxFrameSize maxUdpPayload (a :: j) = some e)
    (hopen : a.pkt.hdr.packetCount = packetCount frame)
    (h : HoldsFrame maxFrameSize frameId frame ((a :: j).map Arrival.pkt)) (hne : frame ≠ [])
    (hcount : Countable frame)
    (hslot : ∀ b ∈ a :: j, b.pkt.hdr.payloadSize.toNat ≤ maxUdpPayload) :
    e.reassembler.frameSize = frame.length ∧
      e.reassembler.frameBuffer.take frame.length = frame := by
  have href := entryOf_reflects he
  rw [hopen] at href
  refine ⟨h.frameSize_eq hne hcount href, List.ext_getElem? (fun pos => ?_)⟩
  have hlen := h.length_le hne hcount
  have hpos : 0 < maxUdpPayload := by decide
  have hstride : maxUdpPayload ≤ 2 ^ 32 := by decide
  rcases Nat.lt_or_ge pos frame.length with hlt | hge
  · have hbuffer := FrameReassemblerV2.frameBuffer_pushAll hpos hstride maxFrameSize
      a.pkt.hdr.frameId (packetCount frame) ((a :: j).map Arrival.pkt)
      (by simpa using hslot) pos (by omega)
    rw [h.contentByte_eq hcount hlt, ← hopen] at hbuffer
    rw [List.getElem?_take_of_lt hlt, List.getElem?_eq_getElem hlt]
    obtain rfl := Option.some.inj he
    exact hbuffer
  · rw [List.getElem?_eq_none (by simp; omega), List.getElem?_eq_none hge]

end HvFrame
