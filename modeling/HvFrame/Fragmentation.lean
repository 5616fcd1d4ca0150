import HvFrame.SentFrames

/-!
# Fragmentation

What the datagrams of one frame carry, read back from their bytes. The slices cover an initial
part of the frame of `packet_count * MAX_UDP_PAYLOAD` bytes, so nothing is lost exactly when the
count fits its 16-bit field.
-/

namespace HvFrame

namespace UdpSender

def payloadOf (d : List UInt8) : List UInt8 := d.drop UdpPacketHeader.byteSize

/-- The datagrams `ds` are numbered in order, are full except for the last, and carry the
whole frame. -/
structure CarriesFrame (frame : List UInt8) (ds : List (List UInt8)) : Prop where
  whole : ds.flatMap payloadOf = frame
  ids : ds.map (fun d => (UdpPacketHeader.read d).packetId.toNat) =
    List.range (packetCount frame).toNat
  counts : ∀ d ∈ ds, (UdpPacketHeader.read d).packetCount = packetCount frame
  sizes : ∀ d ∈ ds, 1 ≤ (payloadOf d).length ∧ (payloadOf d).length ≤ maxUdpPayload
  full : ∀ d ∈ ds.dropLast, (payloadOf d).length = maxUdpPayload

variable {frameId : UInt32} {frame : List UInt8} {pid : UInt16}

@[simp] theorem payloadOf_datagram (frameId : UInt32) (frame : List UInt8) (pid : UInt16) :
    payloadOf (datagram frameId frame pid) = slice frame pid := by
  rw [payloadOf, datagram, ← (header frameId frame pid).bytes_length, List.drop_left]

@[simp] theorem read_datagram (frameId : UInt32) (frame : List UInt8) (pid : UInt16) :
    UdpPacketHeader.read (datagram frameId frame pid) = header frameId frame pid :=
  UdpPacketHeader.read_bytes _ _

theorem packetSize_of_not_last (h : pid.toNat + 1 < (packetCount frame).toNat) :
    packetSize frame pid = maxUdpPayload := by
  have hoffset := offset_lt (index_lt h)
  rw [index_toNat h, Nat.add_mul] at hoffset
  rw [packetSize]
  omega

theorem flatMap_payloads (frameId : UInt32) (frame : List UInt8) :
    (frameDatagrams frameId frame).flatMap payloadOf =
      frame.take ((packetCount frame).toNat * maxUdpPayload) := by
  rw [frameDatagrams, List.flatMap_map, ← flatMap_slices]
  simp

/-- The count is enough for the frame exactly if it was not truncated. -/
theorem countable_iff :
    Countable frame ↔ frame.length ≤ (packetCount frame).toNat * maxUdpPayload := by
  constructor
  · intro h
    rw [packetCount_toNat h]
    simp only [maxUdpPayload]
    omega
  · intro h
    have hcount : (packetCount frame).toNat ≤ 65535 :=
      Nat.le_of_lt_succ (packetCount frame).toNat_lt
    exact h.trans (Nat.mul_le_mul_right _ hcount)

private theorem lt_of_mem_dropLast_range {n i : ℕ} (h : i ∈ (List.range n).dropLast) :
    i + 1 < n := by
  cases n with
  | zero => simp at h
  | succ n =>
    rw [List.range_succ, List.dropLast_concat, List.mem_range] at h
    omega

/-- When every packet goes out, the datagrams carry the frame exactly if it has at most
65535 packets. -/
theorem carriesFrame_iff (s : UdpSender) {outcomes : List SendOutcome}
    (h : Completes frame outcomes) :
    CarriesFrame frame (s.sendFrame frame outcomes).2 ↔ Countable frame := by
  rw [s.sendFrame_completes h]
  constructor
  · intro hcarries
    have hwhole := hcarries.whole
    rw [flatMap_payloads, List.take_eq_self_iff] at hwhole
    exact countable_iff.mpr hwhole
  · intro hcount
    refine ⟨?_, ?_, ?_, ?_, ?_⟩
    · rw [flatMap_payloads, List.take_of_length_le (countable_iff.mp hcount)]
    · rw [frameDatagrams, List.map_map]
      refine (List.map_congr_left (fun i hi => ?_)).trans (List.map_id _)
      simp [header, index_toNat (List.mem_range.mp hi)]
    · intro d hd
      obtain ⟨pid, -, rfl⟩ := mem_frameDatagrams.mp hd
      rw [read_datagram]
      rfl
    · intro d hd
      obtain ⟨pid, hpid, rfl⟩ := mem_frameDatagrams.mp hd
      rw [payloadOf_datagram, slice_length]
      exact ⟨packetSize_pos hpid, packetSize_le frame pid⟩
    · intro d hd
      rw [frameDatagrams, ← List.map_dropLast] at hd
      obtain ⟨i, hi, rfl⟩ := List.mem_map.mp hd
      have hnotLast : i + 1 < (packetCount frame).toNat := lt_of_mem_dropLast_range hi
      rw [payloadOf_datagram, slice_length, packetSize_of_not_last]
      rwa [index_toNat (show i < (packetCount frame).toNat by omega)]

/-- A frame of two packets, the second of which is retried. -/
theorem carriesFrame_twoPackets :
    CarriesFrame twoPacketFrame (new.sendFrame twoPacketFrame [.sent, .retry, .sent]).2 :=
  (carriesFrame_iff new (completes_two length_twoPacketFrame)).mpr
    (countable_two length_twoPacketFrame)

/-- A frame of 65536 packets is announced as empty and nothing of it is sent. -/
theorem not_carriesFrame :
    ¬ ∀ (s : UdpSender) (frame : List UInt8) (outcomes : List SendOutcome),
      Completes frame outcomes → CarriesFrame frame (s.sendFrame frame outcomes).2 := by
  intro h
  have hcount : packetCount (List.replicate (65536 * maxUdpPayload) 0) = 0 := by
    rw [packetCount, List.length_replicate]
    rfl
  have hcarries := (h new (List.replicate (65536 * maxUdpPayload) 0) []
    ⟨by simp, by simp, by simp [hcount]⟩).whole
  have hlength := congrArg List.length hcarries
  rw [List.length_replicate] at hlength
  exact absurd hlength (by decide)

end UdpSender

end HvFrame
