import HvFrame.UdpProtocol

/-!
# The receive thread's datagram handling

The checks and copies `udp_rx_thread` makes on the bytes `recvfrom` left in its buffer,
and the receiver's constants.
-/

namespace HvFrame

namespace Receiver

/-- `MAX_QUEUE_SIZE`. -/
def maxQueueSize : ℕ := 4096 * 4

/-- `MAX_FRAME_SIZE`. -/
def maxFrameSize : ℕ := 4096 * 2160 * 2

/-- `PAYLOAD_STRIDE`. -/
def payloadStride : ℕ := 1400

/-- `sizeof(buf)`. -/
def bufSize : ℕ := 2048

end Receiver

/-- The header of a datagram that passes both checks; `none` where the loop continues. -/
def acceptDatagram (received : List UInt8) : Option UdpPacketHeader :=
  if received.length ≤ UdpPacketHeader.byteSize then none
  else if received.length - UdpPacketHeader.byteSize <
      (UdpPacketHeader.read received).payloadSize.toNat then none
  else some (UdpPacketHeader.read received)

/-- The packet that reaches `queue.push`. `make_unique` zeroes the payload array before
`payload_size` bytes are copied to its start. -/
def rxDatagram (received : List UInt8) : Option RxPacket :=
  (acceptDatagram received).map (fun hdr => {
    hdr := hdr
    payload := fun i =>
      if i < hdr.payloadSize.toNat then received.getD (UdpPacketHeader.byteSize + i) 0 else 0 })

theorem acceptDatagram_eq_some {received : List UInt8} {hdr : UdpPacketHeader} :
    acceptDatagram received = some hdr ↔
      UdpPacketHeader.byteSize < received.length ∧ UdpPacketHeader.read received = hdr ∧
        hdr.payloadSize.toNat ≤ received.length - UdpPacketHeader.byteSize := by
  simp only [acceptDatagram]
  split_ifs with hlen hsize
  · simp [Nat.not_lt.mpr hlen]
  · simp only [false_iff, not_and]
    rintro - rfl
    omega
  · simp only [Option.some.injEq]
    constructor
    · rintro rfl
      exact ⟨by omega, rfl, by omega⟩
    · exact fun h => h.2.1

/-- A datagram whose header announces exactly the bytes behind it is received unchanged. -/
theorem rxDatagram_append (hdr : UdpPacketHeader) (payload : List UInt8) (hne : payload ≠ [])
    (hsize : hdr.payloadSize.toNat = payload.length) :
    rxDatagram (hdr.bytes ++ payload) =
      some { hdr := hdr, payload := fun i => payload.getD i 0 } := by
  have hpos := List.length_pos_of_ne_nil hne
  have haccept : acceptDatagram (hdr.bytes ++ payload) = some hdr := by
    rw [acceptDatagram_eq_some]
    refine ⟨?_, hdr.read_bytes payload, ?_⟩
    · simp
      omega
    · simp [hsize]
  rw [rxDatagram, haccept, Option.map_some]
  congr 2
  funext i
  have hlen := hdr.bytes_length
  split_ifs with hi
  · rw [List.getD_eq_getElem?_getD, List.getElem?_append_right (by omega), hlen,
      Nat.add_sub_cancel_left, ← List.getD_eq_getElem?_getD]
  · have hout : payload[i]? = none := List.getElem?_eq_none (by omega)
    simp [hout]

/-- `p` is what `udp_rx_thread` makes of some datagram, and its payload fits `RxPacket::payload`. -/
def Receivable (p : RxPacket) : Prop :=
  (∃ d, d.length ≤ Receiver.bufSize ∧ rxDatagram d = some p) ∧
    p.hdr.payloadSize.toNat ≤ rxPayloadSize

theorem receivable_of_bytes (hdr : UdpPacketHeader) (payload : List UInt8) (hne : payload ≠ [])
    (hsize : hdr.payloadSize.toNat = payload.length) (hfits : payload.length ≤ rxPayloadSize) :
    Receivable { hdr := hdr, payload := fun i => payload.getD i 0 } := by
  refine ⟨⟨_, ?_, rxDatagram_append hdr payload hne hsize⟩, hsize.trans_le hfits⟩
  simp only [List.length_append, UdpPacketHeader.bytes_length, UdpPacketHeader.byteSize,
    rxPayloadSize, Receiver.bufSize] at hfits ⊢
  omega

end HvFrame
