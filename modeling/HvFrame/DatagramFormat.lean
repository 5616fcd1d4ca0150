import HvFrame.ReceiveBounds
import HvFrame.UdpSender

/-!
# The datagram format

The receive thread's checks accept the serialized packets with any bytes behind them, and
nothing else: parsing and serializing are inverse up to that padding.
-/

namespace HvFrame

theorem littleEndian_readField {buf : List UInt8} {offset w : ℕ} (h : offset + w ≤ buf.length) :
    littleEndian w (readField buf offset w) = (buf.drop offset).take w := by
  have hlen : ((buf.drop offset).take w).length = w := by
    rw [List.length_take, List.length_drop]
    omega
  have hback := littleEndian_fromLittleEndian ((buf.drop offset).take w)
  rwa [hlen] at hback

theorem readField_lt {buf : List UInt8} {offset w : ℕ} : readField buf offset w < 256 ^ w := by
  refine (fromLittleEndian_lt _).trans_le (Nat.pow_le_pow_right (by decide) ?_)
  exact List.length_take_le _ _

theorem UdpPacketHeader.bytes_read {buf : List UInt8} (h : byteSize ≤ buf.length) :
    (read buf).bytes = buf.take byteSize := by
  rw [byteSize] at h ⊢
  have hframeId : (read buf).frameId.toNat = readField buf 0 4 :=
    UInt32.toNat_ofNat_of_lt readField_lt
  have hpacketId : (read buf).packetId.toNat = readField buf 4 2 :=
    UInt16.toNat_ofNat_of_lt readField_lt
  have hpacketCount : (read buf).packetCount.toNat = readField buf 6 2 :=
    UInt16.toNat_ofNat_of_lt readField_lt
  have hpayloadSize : (read buf).payloadSize.toNat = readField buf 8 4 :=
    UInt32.toNat_ofNat_of_lt readField_lt
  rw [bytes, hframeId, hpacketId, hpacketCount, hpayloadSize, littleEndian_readField (by omega),
    littleEndian_readField (by omega), littleEndian_readField (by omega),
    littleEndian_readField (by omega), List.drop_zero, ← List.take_add, ← List.take_add,
    ← List.take_add]

namespace RxPacket

def announced (p : RxPacket) : List UInt8 := (List.range p.hdr.payloadSize.toNat).map p.payload

def datagram (p : RxPacket) : List UInt8 := p.hdr.bytes ++ p.announced

/-- The payload array is zero behind the announced bytes, and no gap is noted. -/
structure Fresh (p : RxPacket) : Prop where
  zeros : ∀ i, p.hdr.payloadSize.toNat ≤ i → p.payload i = 0
  gapBefore : p.gapBefore = false

end RxPacket

/-- A packet that is received is fresh, and its datagram starts the received bytes. -/
theorem datagram_of_rxDatagram {received : List UInt8} {p : RxPacket}
    (h : rxDatagram received = some p) :
    p.Fresh ∧ p.datagram <+: received ∧ UdpPacketHeader.byteSize < received.length := by
  obtain ⟨hdr, hacc, rfl⟩ := Option.map_eq_some_iff.mp h
  obtain ⟨hlen, rfl, hsize⟩ := acceptDatagram_eq_some.mp hacc
  refine ⟨⟨fun i hi => if_neg (Nat.not_lt.mpr hi), rfl⟩, ?_, hlen⟩
  set size := (UdpPacketHeader.read received).payloadSize.toNat
  have hpayload : (List.range size).map (fun i =>
      if i < size then received.getD (UdpPacketHeader.byteSize + i) 0 else 0) =
        (received.drop UdpPacketHeader.byteSize).take size := by
    refine List.ext_getElem? (fun i => ?_)
    by_cases hi : i < size
    · have hin : UdpPacketHeader.byteSize + i < received.length := by omega
      simp [hi, List.getElem?_take_of_lt, List.getD_eq_getElem?_getD,
        List.getElem?_eq_getElem hin]
    · simp [hi]
  rw [RxPacket.datagram, RxPacket.announced, UdpPacketHeader.bytes_read hlen.le]
  dsimp only
  rw [hpayload, ← List.take_add]
  exact List.take_prefix _ _

end HvFrame
