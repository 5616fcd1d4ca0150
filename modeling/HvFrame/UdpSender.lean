import HvFrame.ReceivePath
import Mathlib.Data.UInt

/-!
# The sender

`sendFrame` cuts a frame into datagrams of at most `maxUdpPayload` payload bytes. What `poll`
and `sendto` answer is the environment's choice, one outcome for each iteration of the loop;
a list of outcomes that ends early leaves the loop waiting in `poll`.
-/

namespace HvFrame

/-- How one iteration of the send loop ends. `retry` is `EAGAIN` or `EWOULDBLOCK`. -/
inductive SendOutcome where
  | waitFailed
  | sent
  | retry
  | sendError
  deriving DecidableEq, Repr

structure UdpSender where
  frameId : UInt32
  deriving DecidableEq, Repr

namespace UdpSender

def new : UdpSender := ⟨0⟩

/-- The quotient is stored in a `uint16_t`. -/
def packetCount (frame : List UInt8) : UInt16 :=
  UInt16.ofNat ((frame.length + maxUdpPayload - 1) / maxUdpPayload)

def packetSize (frame : List UInt8) (pid : UInt16) : ℕ :=
  min maxUdpPayload (frame.length - pid.toNat * maxUdpPayload)

def header (frameId : UInt32) (frame : List UInt8) (pid : UInt16) : UdpPacketHeader where
  frameId := frameId
  packetId := pid
  packetCount := packetCount frame
  payloadSize := UInt32.ofNat (packetSize frame pid)

def slice (frame : List UInt8) (pid : UInt16) : List UInt8 :=
  (frame.drop (pid.toNat * maxUdpPayload)).take (packetSize frame pid)

def datagram (frameId : UInt32) (frame : List UInt8) (pid : UInt16) : List UInt8 :=
  (header frameId frame pid).bytes ++ slice frame pid

/-- The loop of `sendFrame`. A retry decrements `pid` before the loop increments it. -/
def sendLoop (frameId : UInt32) (frame : List UInt8) :
    List SendOutcome → UInt16 → List (List UInt8)
  | [], _ => []
  | outcome :: outcomes, pid =>
      if pid < packetCount frame then
        match outcome with
        | .waitFailed => []
        | .sendError => []
        | .retry => sendLoop frameId frame outcomes (pid - 1 + 1)
        | .sent => datagram frameId frame pid :: sendLoop frameId frame outcomes (pid + 1)
      else []

def sendFrame (s : UdpSender) (frame : List UInt8) (outcomes : List SendOutcome) :
    UdpSender × List (List UInt8) :=
  ({ frameId := s.frameId + 1 }, sendLoop (s.frameId + 1) frame outcomes 0)

def frameDatagrams (frameId : UInt32) (frame : List UInt8) : List (List UInt8) :=
  (List.range (packetCount frame).toNat).map (fun i => datagram frameId frame (UInt16.ofNat i))

/-- No iteration fails, and there are enough of them. -/
structure Completes (frame : List UInt8) (outcomes : List SendOutcome) : Prop where
  writable : .waitFailed ∉ outcomes
  noError : .sendError ∉ outcomes
  enough : (packetCount frame).toNat ≤ outcomes.count .sent

/-- The packet a datagram becomes at the receiver. -/
def packet (frameId : UInt32) (frame : List UInt8) (pid : UInt16) : RxPacket where
  hdr := header frameId frame pid
  payload := fun i => (slice frame pid).getD i 0

variable {frameId : UInt32} {frame : List UInt8} {pid : UInt16}

theorem succ_toNat (h : pid < packetCount frame) : (pid + 1).toNat = pid.toNat + 1 := by
  have hlt : pid.toNat < (packetCount frame).toNat := UInt16.lt_iff_toNat_lt.mp h
  have hbound := (packetCount frame).toNat_lt
  rw [UInt16.toNat_add]
  exact Nat.mod_eq_of_lt (by simp; omega)

theorem frameDatagrams_drop (h : pid < packetCount frame) :
    (frameDatagrams frameId frame).drop pid.toNat =
      datagram frameId frame pid :: (frameDatagrams frameId frame).drop (pid + 1).toNat := by
  have hlt : pid.toNat < (packetCount frame).toNat := UInt16.lt_iff_toNat_lt.mp h
  rw [succ_toNat h, List.drop_eq_getElem_cons (by simpa [frameDatagrams] using hlt)]
  simp [frameDatagrams]

/-- Whatever the socket answers, what goes out is an initial part of the datagrams. -/
theorem sendLoop_isPrefix (frameId : UInt32) (frame : List UInt8) (outcomes : List SendOutcome)
    (pid : UInt16) :
    sendLoop frameId frame outcomes pid <+: (frameDatagrams frameId frame).drop pid.toNat := by
  induction outcomes generalizing pid with
  | nil => exact List.nil_prefix
  | cons outcome outcomes ih =>
    by_cases h : pid < packetCount frame
    · cases outcome with
      | waitFailed => simp [sendLoop]
      | sendError => simp [sendLoop]
      | retry =>
        rw [sendLoop, if_pos h, UInt16.sub_add_cancel]
        exact ih pid
      | sent =>
        rw [sendLoop, if_pos h, frameDatagrams_drop h]
        exact (List.prefix_cons_inj _).mpr (ih (pid + 1))
    · cases outcome <;> simp [sendLoop, h]

theorem sendLoop_completes {outcomes : List SendOutcome} (hwrite : .waitFailed ∉ outcomes)
    (herror : .sendError ∉ outcomes) {pid : UInt16}
    (henough : (packetCount frame).toNat - pid.toNat ≤ outcomes.count .sent) :
    sendLoop frameId frame outcomes pid = (frameDatagrams frameId frame).drop pid.toNat := by
  induction outcomes generalizing pid with
  | nil =>
    rw [List.count_nil] at henough
    rw [sendLoop, List.drop_eq_nil_of_le]
    simp only [frameDatagrams, List.length_map, List.length_range]
    omega
  | cons outcome outcomes ih =>
    have hw := List.not_mem_of_not_mem_cons hwrite
    have he := List.not_mem_of_not_mem_cons herror
    by_cases h : pid < packetCount frame
    · cases outcome with
      | waitFailed => exact absurd List.mem_cons_self hwrite
      | sendError => exact absurd List.mem_cons_self herror
      | retry =>
        rw [sendLoop, if_pos h, UInt16.sub_add_cancel]
        exact ih hw he (by simpa using henough)
      | sent =>
        have hsucc := succ_toNat h
        rw [List.count_cons_self] at henough
        rw [sendLoop, if_pos h, frameDatagrams_drop h, ih hw he (by omega)]
    · have hnil : sendLoop frameId frame (outcome :: outcomes) pid = [] := by
        cases outcome <;> simp [sendLoop, h]
      have hle : (packetCount frame).toNat ≤ pid.toNat := by
        simpa [UInt16.lt_iff_toNat_lt] using h
      rw [hnil, List.drop_eq_nil_of_le]
      simpa [frameDatagrams] using hle

/-- Retries are invisible on the wire. -/
theorem sendFrame_completes (s : UdpSender) {outcomes : List SendOutcome}
    (h : Completes frame outcomes) :
    (s.sendFrame frame outcomes).2 = frameDatagrams (s.frameId + 1) frame :=
  sendLoop_completes h.writable h.noError (Nat.sub_le_of_le_add (Nat.le_add_right_of_le h.enough))

theorem mem_sendFrame {s : UdpSender} {outcomes : List SendOutcome} {d : List UInt8}
    (h : d ∈ (s.sendFrame frame outcomes).2) : d ∈ frameDatagrams (s.frameId + 1) frame :=
  (sendLoop_isPrefix _ _ _ 0).subset h

theorem mem_frameDatagrams {d : List UInt8} :
    d ∈ frameDatagrams frameId frame ↔
      ∃ pid < packetCount frame, d = datagram frameId frame pid := by
  simp only [frameDatagrams, List.mem_map, List.mem_range]
  constructor
  · rintro ⟨i, hi, rfl⟩
    exact ⟨UInt16.ofNat i, index_lt hi, rfl⟩
  · rintro ⟨pid, hpid, rfl⟩
    exact ⟨pid.toNat, UInt16.lt_iff_toNat_lt.mp hpid, by simp⟩

/-- Every announced packet starts inside the frame, also when the count was truncated. -/
theorem offset_lt (h : pid < packetCount frame) : pid.toNat * maxUdpPayload < frame.length := by
  have hlt : pid.toNat < (packetCount frame).toNat := UInt16.lt_iff_toNat_lt.mp h
  have hmod : (packetCount frame).toNat ≤ (frame.length + maxUdpPayload - 1) / maxUdpPayload := by
    rw [packetCount, UInt16.toNat_ofNat']
    exact Nat.mod_le _ _
  simp only [maxUdpPayload] at hmod ⊢
  omega

theorem packetSize_pos (h : pid < packetCount frame) : 0 < packetSize frame pid := by
  have hoffset := offset_lt h
  simp only [packetSize, maxUdpPayload] at hoffset ⊢
  omega

theorem packetSize_le (frame : List UInt8) (pid : UInt16) : packetSize frame pid ≤ maxUdpPayload :=
  min_le_left _ _

@[simp] theorem payloadSize_toNat (frameId : UInt32) (frame : List UInt8) (pid : UInt16) :
    (header frameId frame pid).payloadSize.toNat = packetSize frame pid := by
  have hle := packetSize_le frame pid
  simp only [maxUdpPayload] at hle
  exact UInt32.toNat_ofNat_of_lt (by simp [UInt32.size]; omega)

theorem slice_length (frame : List UInt8) (pid : UInt16) :
    (slice frame pid).length = packetSize frame pid := by
  rw [slice, List.length_take, List.length_drop]
  exact min_eq_left (min_le_right _ _)

theorem slice_eq (frame : List UInt8) (pid : UInt16) :
    slice frame pid = (frame.drop (pid.toNat * maxUdpPayload)).take maxUdpPayload := by
  rw [slice, packetSize, ← List.length_drop, ← List.take_take, List.take_length]

theorem flatMap_slices (frame : List UInt8) :
    (List.range (packetCount frame).toNat).flatMap (fun i => slice frame (UInt16.ofNat i)) =
      frame.take ((packetCount frame).toNat * maxUdpPayload) := by
  rw [← flatMap_range_chunks]
  refine List.flatMap_congr (fun i hi => ?_)
  rw [slice_eq, index_toNat (List.mem_range.mp hi)]

theorem slice_ne_nil (h : pid < packetCount frame) : slice frame pid ≠ [] := by
  rw [← List.length_pos_iff_ne_nil, slice_length]
  exact packetSize_pos h

theorem rxDatagram_datagram (h : pid < packetCount frame) :
    rxDatagram (datagram frameId frame pid) = some (packet frameId frame pid) := by
  refine rxDatagram_append _ _ (slice_ne_nil h) ?_
  rw [payloadSize_toNat, slice_length]

theorem receivable_packet (h : pid < packetCount frame) :
    Receivable (packet frameId frame pid) := by
  refine receivable_of_bytes _ _ (slice_ne_nil h) ?_ ?_
  · rw [payloadSize_toNat, slice_length]
  · rw [slice_length]
    exact (packetSize_le frame pid).trans (by decide)

end UdpSender

/-- The packets that reach the queue when the datagrams `ds` arrive. -/
def receivedPackets (ds : List (List UInt8)) : List RxPacket := ds.filterMap rxDatagram

theorem mem_receivedPackets_frameDatagrams {frameId : UInt32} {frame : List UInt8} {p : RxPacket} :
    p ∈ receivedPackets (UdpSender.frameDatagrams frameId frame) ↔
      ∃ pid < UdpSender.packetCount frame, p = UdpSender.packet frameId frame pid := by
  simp only [receivedPackets, List.mem_filterMap, UdpSender.mem_frameDatagrams]
  constructor
  · rintro ⟨d, ⟨pid, hpid, rfl⟩, hd⟩
    rw [UdpSender.rxDatagram_datagram hpid] at hd
    exact ⟨pid, hpid, (Option.some.inj hd).symm⟩
  · rintro ⟨pid, hpid, rfl⟩
    exact ⟨_, ⟨pid, hpid, rfl⟩, UdpSender.rxDatagram_datagram hpid⟩

namespace UdpSender

theorem packetCount_two {frame : List UInt8} (h : frame.length = maxUdpPayload + 1) :
    packetCount frame = 2 := by
  rw [packetCount, h]
  rfl

theorem completes_two {frame : List UInt8} (h : frame.length = maxUdpPayload + 1) :
    Completes frame [.sent, .retry, .sent] :=
  ⟨by decide, by decide, by rw [packetCount_two h]; decide⟩

theorem packet_mem_two {frameId : UInt32} {frame : List UInt8} {pid : UInt16}
    (h : frame.length = maxUdpPayload + 1) (hpid : pid < 2) :
    packet frameId frame pid ∈ receivedPackets (frameDatagrams frameId frame) :=
  mem_receivedPackets_frameDatagrams.mpr ⟨pid, by rwa [packetCount_two h], rfl⟩

theorem eq_of_mem_two {frameId : UInt32} {frame : List UInt8} {p : RxPacket}
    (h : frame.length = maxUdpPayload + 1)
    (hp : p ∈ receivedPackets (frameDatagrams frameId frame)) :
    p = packet frameId frame 0 ∨ p = packet frameId frame 1 := by
  obtain ⟨pid, hpid, rfl⟩ := mem_receivedPackets_frameDatagrams.mp hp
  rw [packetCount_two h] at hpid
  obtain rfl | rfl : pid = 0 ∨ pid = 1 := by
    have hlt : pid.toNat < 2 := UInt16.lt_iff_toNat_lt.mp hpid
    rw [← UInt16.toNat_inj, ← UInt16.toNat_inj]
    change pid.toNat = 0 ∨ pid.toNat = 1
    omega
  · exact Or.inl rfl
  · exact Or.inr rfl

end UdpSender

/-- Two packets long. -/
def twoPacketFrame : List UInt8 := List.replicate 1401 7

theorem length_twoPacketFrame : twoPacketFrame.length = maxUdpPayload + 1 :=
  List.length_replicate

theorem twoPacketFrame_ne_nil : twoPacketFrame ≠ [] :=
  List.ne_nil_of_length_eq_add_one length_twoPacketFrame

theorem twoPacketFrame_fits : twoPacketFrame.length ≤ Receiver.maxFrameSize := by
  rw [length_twoPacketFrame]
  decide

end HvFrame
