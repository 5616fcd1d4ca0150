import HvFrame.FrameJournals
import HvFrame.ReceivePath

/-!
# Copies on the receive path

The same path with bounds-checked copies between objects of their real sizes: the 2048-byte
receive buffer, the 12-byte header, the 1500-byte payload array and the frame buffer. Every
copy stays in range unless the datagram announces more payload than the array holds.
-/

namespace HvFrame

/-- What `udp_rx_thread` does with a datagram when every `memcpy` is checked. -/
inductive CheckedRx where
  | outOfRange
  | discarded
  | pushed (hdr : UdpPacketHeader) (payload : List UInt8)
  deriving DecidableEq, Repr

/-- The loop body of `udp_rx_thread` after `recvfrom` left `len` bytes in `buf`. -/
def rxDatagramChecked (buf : List UInt8) (len : ℕ) : CheckedRx :=
  if len ≤ UdpPacketHeader.byteSize then .discarded
  else
    match memcpyChecked (List.replicate UdpPacketHeader.byteSize 0) 0 buf 0
        UdpPacketHeader.byteSize with
    | none => .outOfRange
    | some hdrBytes =>
        let hdr := UdpPacketHeader.read hdrBytes
        if len - UdpPacketHeader.byteSize < hdr.payloadSize.toNat then .discarded
        else
          match memcpyChecked (List.replicate rxPayloadSize 0) 0 buf UdpPacketHeader.byteSize
              hdr.payloadSize.toNat with
          | none => .outOfRange
          | some payload => .pushed hdr payload

namespace FrameReassemblerV2

/-- `pushPacket` on a payload object of known size; `none` when its copy leaves an object. -/
def pushPacketChecked (fr : FrameReassemblerV2) (hdr : UdpPacketHeader) (payload : List UInt8) :
    Option FrameReassemblerV2 :=
  match fr.admission hdr with
  | .accepted offset =>
      (memcpyChecked fr.frameBuffer offset payload 0 hdr.payloadSize.toNat).map (fun buffer =>
        { fr.store hdr (fun i => payload.getD i 0) offset with frameBuffer := buffer })
  | _ => some fr

theorem pushPacketChecked_eq_some {fr fr' : FrameReassemblerV2} {hdr : UdpPacketHeader}
    {payload : List UInt8} (gap : Bool) (h : fr.pushPacketChecked hdr payload = some fr') :
    fr' = fr.pushPacket hdr (fun i => payload.getD i 0) gap := by
  rcases fr.pushPacket_cases hdr (fun i => payload.getD i 0) gap with
    ⟨offset, hacc, he⟩ | ⟨hrej, he⟩
  · simp only [pushPacketChecked, hacc] at h
    obtain ⟨buffer, hbuffer, rfl⟩ := Option.map_eq_some_iff.mp h
    rw [he, (memcpyChecked_eq_some hbuffer).2.2]
    simp [store]
  · have hsome : fr.pushPacketChecked hdr payload = some fr := by
      cases hadm : fr.admission hdr with
      | accepted offset => exact absurd hadm (hrej offset)
      | outOfRange => simp [pushPacketChecked, hadm]
      | duplicate => simp [pushPacketChecked, hadm]
      | oversized => simp [pushPacketChecked, hadm]
    rw [hsome] at h
    rw [he, Option.some.inj h]

end FrameReassemblerV2

namespace FrameReassemblerManager

def entryFor (m : FrameReassemblerManager) (pkt : RxPacket) (queueDropCount : ℕ) (now : ℤ) :
    FrameEntry :=
  (m.frames.find? pkt.hdr.frameId).getD
    (.opened m.maxFrameSize m.payloadStride pkt queueDropCount now)

def pushPacketChecked (m : FrameReassemblerManager) (hdr : UdpPacketHeader)
    (payload : List UInt8) (queueDropCount : ℕ) (now : ℤ) : Option FrameReassemblerManager :=
  let entry := m.entryFor ⟨hdr, fun i => payload.getD i 0, false⟩ queueDropCount now
  (entry.reassembler.pushPacketChecked hdr payload).map (fun fr =>
    { m with
      frames := m.frames.insert hdr.frameId { entry with reassembler := fr, lastUpdate := now } })

theorem pushPacketChecked_eq_some {m m' : FrameReassemblerManager} {hdr : UdpPacketHeader}
    {payload : List UInt8} {drops : ℕ} {now : ℤ}
    (h : m.pushPacketChecked hdr payload drops now = some m') :
    m' = m.pushPacket ⟨hdr, fun i => payload.getD i 0, false⟩ drops now := by
  obtain ⟨fr, hfr, rfl⟩ := Option.map_eq_some_iff.mp h
  rw [FrameReassemblerV2.pushPacketChecked_eq_some false hfr]
  rfl

theorem entryFor_reflects (maxFrameSize payloadStride : ℕ) (calls : List TimedCall)
    (pkt : RxPacket) (drops : ℕ) (now : ℤ) :
    ∃ frameId count ps, ((machine.state (new maxFrameSize payloadStride) calls).entryFor
      pkt drops now).reassembler.Reflects maxFrameSize payloadStride frameId count ps := by
  obtain ⟨htrack, -⟩ := (tracks_new maxFrameSize payloadStride pkt.hdr.frameId).run calls
  rw [entryFor, htrack.live, htrack.maxSize, htrack.stride]
  cases hj : (journalMachine maxFrameSize payloadStride pkt.hdr.frameId).state [] calls with
  | nil => exact ⟨_, _, [], FrameReassemblerV2.reflects_startNewFrame _ _ _ _⟩
  | cons a as => exact ⟨_, _, _, entryOf_reflects rfl⟩

end FrameReassemblerManager

/-- The datagram passes both checks of the thread and announces more payload than
`RxPacket::payload` holds. -/
def OverlongPayload (received : List UInt8) : Prop :=
  UdpPacketHeader.byteSize < received.length ∧
    rxPayloadSize < (UdpPacketHeader.read received).payloadSize.toNat ∧
    (UdpPacketHeader.read received).payloadSize.toNat ≤ received.length - UdpPacketHeader.byteSize

/-- Whatever stale bytes follow the datagram in the receive buffer, no copy leaves an
object, in the thread or in any reachable manager state. -/
structure ReceivesInBounds (received : List UInt8) : Prop where
  header : ∀ hdr, acceptDatagram received = some hdr →
    hdr.payloadSize.toNat ≤ received.length - UdpPacketHeader.byteSize ∧
      hdr.payloadSize.toNat ≤ rxPayloadSize
  thread : ∀ stale, (received ++ stale).length = Receiver.bufSize →
    rxDatagramChecked (received ++ stale) received.length ≠ .outOfRange
  reassembler : ∀ stale hdr payload, (received ++ stale).length = Receiver.bufSize →
    rxDatagramChecked (received ++ stale) received.length = .pushed hdr payload →
      ∀ maxFrameSize calls drops now,
        ((FrameReassemblerManager.machine.state (FrameReassemblerManager.new maxFrameSize
          Receiver.payloadStride) calls).pushPacketChecked hdr payload drops now).isSome

private theorem headerCopy {received : List UInt8} (stale : List UInt8)
    (h : UdpPacketHeader.byteSize < received.length) :
    memcpyChecked (List.replicate UdpPacketHeader.byteSize 0) 0 (received ++ stale) 0
      UdpPacketHeader.byteSize = some (received.take UdpPacketHeader.byteSize) := by
  have hlen : 0 + UdpPacketHeader.byteSize ≤ (received ++ stale).length := by
    rw [List.length_append]
    omega
  rw [memcpyChecked, if_pos ⟨hlen, by simp⟩, blockCopy_list 0 hlen (by simp)]
  simp [List.take_append_of_le_length h.le]

theorem rxDatagramChecked_eq (received stale : List UInt8) :
    rxDatagramChecked (received ++ stale) received.length =
      match acceptDatagram received with
      | none => .discarded
      | some hdr =>
          match memcpyChecked (List.replicate rxPayloadSize 0) 0 (received ++ stale)
              UdpPacketHeader.byteSize hdr.payloadSize.toNat with
          | none => .outOfRange
          | some payload => .pushed hdr payload := by
  simp only [rxDatagramChecked, acceptDatagram]
  by_cases hlen : received.length ≤ UdpPacketHeader.byteSize
  · simp only [if_pos hlen]
  · simp only [if_neg hlen, headerCopy stale (not_le.mp hlen), UdpPacketHeader.read_take]
    split_ifs <;> rfl

theorem rxDatagramChecked_pushed {received stale payload : List UInt8} {hdr : UdpPacketHeader}
    (h : rxDatagramChecked (received ++ stale) received.length = .pushed hdr payload) :
    acceptDatagram received = some hdr ∧ payload.length = rxPayloadSize ∧
      hdr.payloadSize.toNat ≤ rxPayloadSize := by
  rw [rxDatagramChecked_eq] at h
  cases hacc : acceptDatagram received with
  | none => simp [hacc] at h
  | some hdr' =>
    simp only [hacc] at h
    split at h
    · cases h
    · rename_i out hcopy
      obtain ⟨rfl, rfl⟩ := CheckedRx.pushed.inj h
      obtain ⟨-, hdst, hout⟩ := memcpyChecked_eq_some hcopy
      rw [List.length_replicate, Nat.zero_add] at hdst
      refine ⟨rfl, ?_, hdst⟩
      rw [hout, blockCopy_length, List.length_replicate]

/-- The size check against the frame buffer keeps the copy of every reachable entry inside
both objects. -/
theorem pushPacketChecked_isSome (maxFrameSize : ℕ) (calls : List TimedCall)
    {hdr : UdpPacketHeader} {payload : List UInt8} (hlen : payload.length = rxPayloadSize)
    (hsize : hdr.payloadSize.toNat ≤ rxPayloadSize) (drops : ℕ) (now : ℤ) :
    ((FrameReassemblerManager.machine.state (FrameReassemblerManager.new maxFrameSize
      Receiver.payloadStride) calls).pushPacketChecked hdr payload drops now).isSome := by
  obtain ⟨frameId, count, ps, href⟩ := FrameReassemblerManager.entryFor_reflects maxFrameSize
    Receiver.payloadStride calls ⟨hdr, fun i => payload.getD i 0, false⟩ drops now
  rw [FrameReassemblerManager.pushPacketChecked, Option.isSome_map]
  simp only [FrameReassemblerV2.pushPacketChecked]
  split
  · rename_i offset hacc
    obtain ⟨-, -, hfits, hoffset⟩ := FrameReassemblerV2.admission_accepted hacc
    have hstride : Receiver.payloadStride ≤ 2 ^ 32 := by decide
    rw [href.stride, FrameReassemblerV2.slotOffset_eq hstride] at hoffset
    rw [href.stride, FrameReassemblerV2.slotEnd_eq hstride] at hfits
    rw [Option.isSome_map, memcpyChecked_isSome_iff, href.wellFormed.buffer]
    omega
  · rfl

theorem receivesInBounds_of_not_overlong {received : List UInt8} (h : ¬ OverlongPayload received) :
    ReceivesInBounds received := by
  have hheader : ∀ hdr, acceptDatagram received = some hdr →
      hdr.payloadSize.toNat ≤ received.length - UdpPacketHeader.byteSize ∧
        hdr.payloadSize.toNat ≤ rxPayloadSize := by
    intro hdr hacc
    obtain ⟨hlen, rfl, hsize⟩ := acceptDatagram_eq_some.mp hacc
    refine ⟨hsize, ?_⟩
    by_contra hlong
    exact h ⟨hlen, not_le.mp hlong, hsize⟩
  refine ⟨hheader, ?_, ?_⟩
  · intro stale hbuf
    rw [rxDatagramChecked_eq]
    cases hacc : acceptDatagram received with
    | none => simp
    | some hdr =>
      obtain ⟨hlen, -, hsize⟩ := acceptDatagram_eq_some.mp hacc
      have hpayload := (hheader hdr hacc).2
      have hcopy : (memcpyChecked (List.replicate rxPayloadSize 0) 0 (received ++ stale)
          UdpPacketHeader.byteSize hdr.payloadSize.toNat).isSome := by
        rw [memcpyChecked_isSome_iff, List.length_append, List.length_replicate]
        omega
      obtain ⟨payload, hpay⟩ := Option.isSome_iff_exists.mp hcopy
      simp [hpay]
  · intro stale hdr payload hbuf hpushed maxFrameSize calls drops now
    obtain ⟨-, hlen, hsize⟩ := rxDatagramChecked_pushed hpushed
    exact pushPacketChecked_isSome maxFrameSize calls hlen hsize drops now

/-- An overlong payload makes the thread's copy leave the payload array. -/
theorem rxDatagramChecked_overlong {received : List UInt8} (h : OverlongPayload received)
    (stale : List UInt8) :
    rxDatagramChecked (received ++ stale) received.length = .outOfRange := by
  obtain ⟨hlen, hlong, hsize⟩ := h
  have hacc := acceptDatagram_eq_some.mpr ⟨hlen, rfl, hsize⟩
  have hcopy : memcpyChecked (List.replicate rxPayloadSize 0) 0 (received ++ stale)
      UdpPacketHeader.byteSize (UdpPacketHeader.read received).payloadSize.toNat = none := by
    rw [← Option.not_isSome_iff_eq_none, memcpyChecked_isSome_iff, List.length_replicate]
    omega
  rw [rxDatagramChecked_eq]
  simp only [hacc, hcopy]

theorem not_receivesInBounds_of_overlong {received : List UInt8}
    (hbuf : received.length ≤ Receiver.bufSize) (h : OverlongPayload received) :
    ¬ ReceivesInBounds received := by
  intro hbounds
  refine hbounds.thread (List.replicate (Receiver.bufSize - received.length) 0) ?_
    (rxDatagramChecked_overlong h _)
  rw [List.length_append, List.length_replicate]
  omega

/-- Among the datagrams that fit the receive buffer, exactly those with an overlong payload
make a copy leave its object. -/
theorem receivesInBounds_iff {received : List UInt8} (hbuf : received.length ≤ Receiver.bufSize) :
    ReceivesInBounds received ↔ ¬ OverlongPayload received :=
  ⟨fun hbounds hover => not_receivesInBounds_of_overlong hbuf hover hbounds,
    receivesInBounds_of_not_overlong⟩

/-- A payload that fills the array is received in bounds. -/
theorem receivesInBounds_fullArray :
    ReceivesInBounds ((UdpPacketHeader.mk 1 0 1 1500).bytes ++ List.replicate rxPayloadSize 7) := by
  refine (receivesInBounds_iff ?_).mpr ?_
  · rw [List.length_append, UdpPacketHeader.bytes_length, List.length_replicate]
    decide
  · rintro ⟨-, hlong, -⟩
    rw [UdpPacketHeader.read_bytes] at hlong
    exact absurd hlong (by decide)

def overlongDatagram : List UInt8 :=
  (UdpPacketHeader.mk 1 0 1 1501).bytes ++ List.replicate 1501 0

theorem overlongDatagram_length : overlongDatagram.length = 1513 := by
  rw [overlongDatagram, List.length_append, UdpPacketHeader.bytes_length, List.length_replicate,
    UdpPacketHeader.byteSize]

/-- The checks of the thread let it through, and the payload array is overrun. -/
theorem overlongDatagram_not_receivesInBounds :
    overlongDatagram.length ≤ Receiver.bufSize ∧ ¬ ReceivesInBounds overlongDatagram := by
  have hread : UdpPacketHeader.read overlongDatagram = ⟨1, 0, 1, 1501⟩ :=
    UdpPacketHeader.read_bytes _ _
  have hbuf : overlongDatagram.length ≤ Receiver.bufSize := by
    rw [overlongDatagram_length]
    decide
  refine ⟨hbuf, not_receivesInBounds_of_overlong hbuf ⟨?_, ?_, ?_⟩⟩
  · rw [overlongDatagram_length]
    decide
  · rw [hread]
    decide
  · rw [hread, overlongDatagram_length]
    decide

end HvFrame
