import HvFrame.ByteBuffers
import Mathlib.Order.Defs.LinearOrder

/-!
# Wire formats

The packed structures of `protocol/udp_packet.hpp` and `protocol/frame_header.hpp`
with their byte images, and the constants both ends share. `memcpy` of a packed
structure is its little-endian byte image, as on the x86-64 and AArch64 targets.
-/

namespace HvFrame

instance linearOrderUInt32 : LinearOrder UInt32 where
  le_refl := UInt32.le_refl
  le_trans _ _ _ := UInt32.le_trans
  le_antisymm _ _ := UInt32.le_antisymm
  le_total := UInt32.le_total
  lt_iff_le_not_ge a b := by
    simp only [UInt32.lt_iff_toNat_lt, UInt32.le_iff_toNat_le]
    omega
  toDecidableLE := inferInstance
  toDecidableEq := inferInstance
  toDecidableLT := inferInstance

/-- `protocol::MAX_UDP_PAYLOAD`. -/
def maxUdpPayload : ℕ := 1400

/-- `protocol::FRAME_MAGIC`. -/
def frameMagic : UInt32 := 0xCC1210B2

/-- `protocol::PROTOCOL_VERSION`. -/
def protocolVersion : UInt16 := 1

theorem index_toNat {count : UInt16} {i : ℕ} (h : i < count.toNat) : (UInt16.ofNat i).toNat = i :=
  UInt16.toNat_ofNat_of_lt' (h.trans count.toNat_lt)

theorem index_lt {count : UInt16} {i : ℕ} (h : i < count.toNat) : UInt16.ofNat i < count := by
  rwa [UInt16.lt_iff_toNat_lt, index_toNat h]

structure UdpPacketHeader where
  frameId : UInt32
  packetId : UInt16
  packetCount : UInt16
  payloadSize : UInt32
  deriving DecidableEq, Repr

namespace UdpPacketHeader

/-- `sizeof(UdpPacketHeader)`. -/
def byteSize : ℕ := 12

def bytes (h : UdpPacketHeader) : List UInt8 :=
  littleEndian 4 h.frameId.toNat ++ littleEndian 2 h.packetId.toNat ++
    littleEndian 2 h.packetCount.toNat ++ littleEndian 4 h.payloadSize.toNat

def read (buf : List UInt8) : UdpPacketHeader where
  frameId := UInt32.ofNat (readField buf 0 4)
  packetId := UInt16.ofNat (readField buf 4 2)
  packetCount := UInt16.ofNat (readField buf 6 2)
  payloadSize := UInt32.ofNat (readField buf 8 4)

@[simp] theorem bytes_length (h : UdpPacketHeader) : h.bytes.length = byteSize := by
  simp [bytes, byteSize]

/-- A header survives the wire. -/
theorem read_bytes (h : UdpPacketHeader) (rest : List UInt8) : read (h.bytes ++ rest) = h := by
  obtain ⟨fid, pid, count, size⟩ := h
  have hfid : readField (bytes ⟨fid, pid, count, size⟩ ++ rest) 0 4 = fid.toNat := by
    have h := readField_append [] (littleEndian 4 fid.toNat) (littleEndian 2 pid.toNat ++
      (littleEndian 2 count.toNat ++ (littleEndian 4 size.toNat ++ rest))) rfl
      (littleEndian_length 4 _)
    simpa [bytes, fromLittleEndian_littleEndian, Nat.mod_eq_of_lt fid.toNat_lt] using h
  have hpid : readField (bytes ⟨fid, pid, count, size⟩ ++ rest) 4 2 = pid.toNat := by
    have h := readField_append (littleEndian 4 fid.toNat) (littleEndian 2 pid.toNat)
      (littleEndian 2 count.toNat ++ (littleEndian 4 size.toNat ++ rest))
      (littleEndian_length 4 _) (littleEndian_length 2 _)
    simpa [bytes, fromLittleEndian_littleEndian, Nat.mod_eq_of_lt pid.toNat_lt] using h
  have hcount : readField (bytes ⟨fid, pid, count, size⟩ ++ rest) 6 2 = count.toNat := by
    have hpre : (littleEndian 4 fid.toNat ++ littleEndian 2 pid.toNat).length = 6 := by simp
    have h := readField_append (littleEndian 4 fid.toNat ++ littleEndian 2 pid.toNat)
      (littleEndian 2 count.toNat) (littleEndian 4 size.toNat ++ rest) hpre
      (littleEndian_length 2 _)
    simpa [bytes, fromLittleEndian_littleEndian, Nat.mod_eq_of_lt count.toNat_lt] using h
  have hsize : readField (bytes ⟨fid, pid, count, size⟩ ++ rest) 8 4 = size.toNat := by
    have hpre : (littleEndian 4 fid.toNat ++ littleEndian 2 pid.toNat ++
      littleEndian 2 count.toNat).length = 8 := by simp
    have h := readField_append (littleEndian 4 fid.toNat ++ littleEndian 2 pid.toNat ++
      littleEndian 2 count.toNat) (littleEndian 4 size.toNat) rest hpre (littleEndian_length 4 _)
    simpa [bytes, fromLittleEndian_littleEndian, Nat.mod_eq_of_lt size.toNat_lt] using h
  simp [read, hfid, hpid, hcount, hsize]

theorem read_take (buf : List UInt8) : read (buf.take byteSize) = read buf := by
  have hfield : ∀ o w, o + w ≤ byteSize →
      readField (buf.take byteSize) o w = readField buf o w := fun _ _ h => readField_take h
  simp only [byteSize] at hfield
  simp [read, byteSize, hfield]

end UdpPacketHeader

/-- `sizeof(RxPacket::payload)`. -/
def rxPayloadSize : ℕ := 1500

/-- `payload i` is the byte at `pkt.payload + i`. The array is the first `rxPayloadSize`
of these bytes; what a read past its end finds is whatever lies there in memory. -/
structure RxPacket where
  hdr : UdpPacketHeader
  payload : ℕ → UInt8
  gapBefore : Bool := false

/-- The 16-byte header the encoder puts in front of a raw image. -/
structure FrameHeader where
  magic : UInt32
  version : UInt16
  width : UInt16
  height : UInt16
  bitdepth : UInt8
  reserved : UInt8 := 0
  frameSize : UInt32
  deriving DecidableEq, Repr

namespace FrameHeader

/-- `sizeof(FrameHeader)`. -/
def byteSize : ℕ := 16

def bytes (h : FrameHeader) : List UInt8 :=
  littleEndian 4 h.magic.toNat ++ littleEndian 2 h.version.toNat ++
    littleEndian 2 h.width.toNat ++ littleEndian 2 h.height.toNat ++ [h.bitdepth, h.reserved] ++
    littleEndian 4 h.frameSize.toNat

def readFrameSize (buf : List UInt8) : ℕ := readField buf 12 4

@[simp] theorem bytes_length (h : FrameHeader) : h.bytes.length = byteSize := by
  simp [bytes, byteSize]

theorem readFrameSize_bytes (h : FrameHeader) (rest : List UInt8) :
    readFrameSize (h.bytes ++ rest) = h.frameSize.toNat := by
  have hpre : (littleEndian 4 h.magic.toNat ++ littleEndian 2 h.version.toNat ++
    littleEndian 2 h.width.toNat ++ littleEndian 2 h.height.toNat ++
    [h.bitdepth, h.reserved]).length = 12 := by simp
  have hlt : h.frameSize.toNat < 256 ^ 4 := h.frameSize.toNat_lt
  rw [readFrameSize, bytes, readField_append _ _ rest hpre (littleEndian_length 4 _),
    fromLittleEndian_littleEndian, Nat.mod_eq_of_lt hlt]

end FrameHeader

end HvFrame
