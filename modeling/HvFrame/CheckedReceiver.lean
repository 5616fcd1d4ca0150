import HvFrame.DatagramFormat
import HvFrame.NetworkRuns

/-!
# The receiver's threads with checked copies

The machine of the threads moves packets and frames without looking at the sizes of the objects
that hold them. Here every copy of a step is checked against these: a run never fails exactly if no
datagram with an overlong payload is received, and then the checked steps do what the plain ones
do. A sender's own datagrams never are overlong, whatever the network does with them.
-/

namespace HvFrame

/-- What `recvfrom` does to the buffer: the datagram, cut to its size, replaces the first bytes. -/
def recvfrom (buf datagram : List UInt8) : List UInt8 :=
  datagram.take Receiver.bufSize ++ buf.drop (datagram.take Receiver.bufSize).length

def RxPacket.array (p : RxPacket) : List UInt8 := (List.range rxPayloadSize).map p.payload

def RxPacket.object (p : RxPacket) : CheckedRx := .pushed p.hdr p.array

theorem rxDatagramChecked_forgets {received : List UInt8} (stale : List UInt8)
    (h : ¬ OverlongPayload received) :
    rxDatagramChecked (received ++ stale) received.length =
      match rxDatagram received with
      | none => .discarded
      | some p => p.object := by
  rw [rxDatagramChecked_eq, rxDatagram]
  cases hacc : acceptDatagram received with
  | none => rfl
  | some hdr =>
    obtain ⟨hlen, rfl, hsize⟩ := acceptDatagram_eq_some.mp hacc
    set size := (UdpPacketHeader.read received).payloadSize.toNat with hdef
    have hfits : size ≤ rxPayloadSize := by
      by_contra hlong
      exact h ⟨hlen, Nat.lt_of_not_le hlong, hsize⟩
    have hcopy : memcpyChecked (List.replicate rxPayloadSize 0) 0 (received ++ stale)
        UdpPacketHeader.byteSize size = some ((List.range rxPayloadSize).map (fun i =>
          if i < size then received.getD (UdpPacketHeader.byteSize + i) 0 else 0)) := by
      have hin : UdpPacketHeader.byteSize + size ≤ (received ++ stale).length ∧
          0 + size ≤ (List.replicate rxPayloadSize (0 : UInt8)).length := by
        rw [List.length_append, List.length_replicate]
        omega
      rw [memcpyChecked, if_pos hin, Option.some.injEq]
      refine List.ext_getElem? (fun i => ?_)
      by_cases hi : i < size
      · have hinside : UdpPacketHeader.byteSize + i < received.length := by omega
        rw [getElem?_blockCopy_inside _ (Nat.zero_le i) (by omega)
          (by rw [List.length_replicate]; omega)]
        simp [hi, List.getD_eq_getElem?_getD, List.getElem?_append_left hinside,
          show i < rxPayloadSize by omega]
      · rw [getElem?_blockCopy_outside _ (by omega)]
        by_cases hobject : i < rxPayloadSize <;> simp [hi, hobject]
    rw [hdef] at hcopy
    simp only [hcopy]
    rfl

/-- The three `fwrite`s read inside the buffer. -/
def WriteCall.InBounds (c : WriteCall) : Prop :=
  c.writes = true → FrameHeader.byteSize ≤ c.frameSize ∧ c.frameSize ≤ c.frame.length

namespace ReceiverState

def rxBuffer (clock : ℤ) (moves : List ReceiverMove) : List UInt8 :=
  (receipts clock moves).foldl recvfrom (List.replicate Receiver.bufSize 0)

/-- The bitmap of the entry that a packet goes to has a bit for each announced index. -/
def BitInBounds (m : FrameReassemblerManager) (pkt : RxPacket) (queueNow : ℕ) (now : ℤ) : Prop :=
  let fr := (m.entryFor pkt queueNow now).reassembler
  pkt.hdr.packetId < fr.expectedPacketCount → pkt.hdr.packetId.toNat < fr.packetReceived.length

/-- The copies of a step on the objects themselves succeed and move what the plain step moves. -/
def StepChecked (buf : List UInt8) (s : ReceiverState) : ReceiverMove → Prop
  | .rx (.received datagram) =>
      s.rx = .polling →
        rxDatagramChecked (recvfrom buf datagram) (datagram.take Receiver.bufSize).length =
          match receivedPacket datagram with
          | none => .discarded
          | some pkt => pkt.object
  | .worker =>
      (∀ pkt queueNow, s.worker = .sampled pkt queueNow →
        BitInBounds s.manager pkt queueNow s.clock ∧
          s.manager.pushPacketChecked pkt.hdr pkt.array queueNow s.clock =
            some (s.manager.pushPacket pkt queueNow s.clock)) ∧
      ∀ out, .managed out ∈ s.workerStep.2 → out.writeCall.InBounds
  | _ => True

/-- No step of the run leaves an object. -/
def RunChecked (clock : ℤ) (moves : List ReceiverMove) : Prop :=
  ∀ x ∈ positions moves, StepChecked (rxBuffer clock x.1) (machine.state (init clock) x.1) x.2

end ReceiverState

theorem payload_of_received {received : List UInt8} {p : RxPacket}
    (h : rxDatagram received = some p) (hshort : ¬ OverlongPayload received) :
    p.hdr.payloadSize.toNat ≤ rxPayloadSize ∧ (fun i => p.array.getD i 0) = p.payload := by
  obtain ⟨hfresh, -, -⟩ := datagram_of_rxDatagram h
  obtain ⟨hdr, hacc, hp⟩ := Option.map_eq_some_iff.mp h
  have hhdr : p.hdr = hdr := by rw [← hp]
  have hsize : p.hdr.payloadSize.toNat ≤ rxPayloadSize := by
    rw [hhdr]
    exact ((receivesInBounds_of_not_overlong hshort).header hdr hacc).2
  refine ⟨hsize, funext (fun i => ?_)⟩
  by_cases hi : i < rxPayloadSize
  · simp [RxPacket.array, List.getD_eq_getElem?_getD, hi]
  · have hzero := hfresh.zeros i (hsize.trans (not_lt.mp hi))
    simp [RxPacket.array, List.getD_eq_getElem?_getD, hi, hzero]

namespace ReceiverState

variable {clock : ℤ} {moves : List ReceiverMove}

theorem received_of_sampled {pkt : RxPacket} {queueNow : ℕ}
    (h : (machine.state (init clock) moves).worker = .sampled pkt queueNow) :
    pkt ∈ (receipts clock moves).filterMap receivedPacket := by
  refine received_of_accepted ?_
  rw [← (usedInOrder_run clock moves).1.fifo, h]
  exact List.mem_append_left _ (List.mem_append_right _ List.mem_cons_self)

theorem inBounds_of_output {out : ManagerOutput}
    (h : .managed out ∈ machine.outputs (init clock) moves) : out.writeCall.InBounds := by
  intro hwrites
  obtain ⟨before, later, k, e, -, he, hout⟩ := entry_of_output h
  rw [(manager_run clock before).1] at he
  obtain ⟨count, ps, href⟩ := FrameReassemblerManager.reflects_of_find? he
  have hwf := href.wellFormed
  have hbuffer : out.writeCall.frame = e.reassembler.frameBuffer ∧
      out.writeCall.frameSize = e.reassembler.frameSize := by
    rcases hout with ⟨drops, rfl⟩ | rfl <;> exact ⟨rfl, rfl⟩
  simp only [WriteCall.writes, Bool.not_eq_true', Bool.or_eq_false_iff, decide_eq_false_iff_not,
    not_lt] at hwrites
  refine ⟨hwrites.2, ?_⟩
  rw [hbuffer.1, hbuffer.2, hwf.buffer]
  exact hwf.extent

theorem bitInBounds_run (clock : ℤ) (moves : List ReceiverMove) (pkt : RxPacket) (queueNow : ℕ)
    (now : ℤ) : BitInBounds (machine.state (init clock) moves).manager pkt queueNow now := by
  intro hlt
  obtain ⟨frameId, count, ps, href⟩ := FrameReassemblerManager.entryFor_reflects
    Receiver.maxFrameSize Receiver.payloadStride (managerCalls clock moves) pkt queueNow now
  rw [← (manager_run clock moves).1] at href
  rw [href.wellFormed.bitmap]
  exact UInt16.lt_iff_toNat_lt.mp hlt

/-- What is handed over is copied into the frame buffer, and inside it. -/
theorem pushPacketChecked_of_sampled {pkt : RxPacket} {queueNow : ℕ}
    (hworker : (machine.state (init clock) moves).worker = .sampled pkt queueNow)
    (hshort : ∀ d ∈ receipts clock moves, ¬ OverlongPayload (d.take Receiver.bufSize)) (now : ℤ) :
    (machine.state (init clock) moves).manager.pushPacketChecked pkt.hdr pkt.array queueNow now =
      some ((machine.state (init clock) moves).manager.pushPacket pkt queueNow now) := by
  obtain ⟨d, hd, hpkt⟩ := List.mem_filterMap.mp (received_of_sampled hworker)
  obtain ⟨hsize, harray⟩ := payload_of_received hpkt (hshort d hd)
  have hlength : pkt.array.length = rxPayloadSize := by simp [RxPacket.array]
  have hsome := pushPacketChecked_isSome Receiver.maxFrameSize (managerCalls clock moves) hlength
    hsize queueNow now
  rw [← (manager_run clock moves).1] at hsome
  obtain ⟨m, hm⟩ := Option.isSome_iff_exists.mp hsome
  have hobject : (⟨pkt.hdr, fun i => pkt.array.getD i 0, false⟩ : RxPacket) = pkt := by
    rw [harray, ← (datagram_of_rxDatagram hpkt).1.gapBefore]
  rw [hm, FrameReassemblerManager.pushPacketChecked_eq_some hm, hobject]

/-- A run without overlong payloads never leaves an object. -/
theorem runChecked_of_short
    (hshort : ∀ d ∈ receipts clock moves, ¬ OverlongPayload (d.take Receiver.bufSize)) :
    RunChecked clock moves := by
  rintro ⟨before, a⟩ hx
  have hnow : ∀ d ∈ receipt (machine.state (init clock) before) a,
      ¬ OverlongPayload (d.take Receiver.bufSize) := fun d hd =>
    hshort d ((machine.mem_callsTo receipt).mpr ⟨_, hx, hd⟩)
  obtain ⟨later, rfl⟩ := mem_positions_iff.mp hx
  have hpast : ∀ d ∈ receipts clock before, ¬ OverlongPayload (d.take Receiver.bufSize) := by
    intro d hd
    refine hshort d ?_
    rw [receipts, OutputMachine.callsTo_append]
    exact List.mem_append_left _ hd
  cases a with
  | rx outcome =>
    cases outcome with
    | received datagram =>
      intro hrx
      exact rxDatagramChecked_forgets _ (hnow datagram (by simp [receipt, hrx]))
    | _ => trivial
  | worker =>
    refine ⟨fun pkt queueNow hworker =>
      ⟨bitInBounds_run clock before pkt queueNow _, pushPacketChecked_of_sampled hworker hpast _⟩,
      ?_⟩
    intro out hout
    have hmem : .managed out ∈ machine.outputs (init clock) (before ++ [.worker]) := by
      rw [OutputMachine.outputs_append]
      exact List.mem_append_right _ (List.mem_append_left _ hout)
    exact inBounds_of_output hmem
  | _ => trivial

/-- In every interleaving no step leaves an object, and the checked copies move what the plain
steps move, exactly if no datagram with an overlong payload has been received. -/
theorem runChecked_iff (clock : ℤ) (moves : List ReceiverMove) :
    RunChecked clock moves ↔
      ∀ d ∈ receipts clock moves, ¬ OverlongPayload (d.take Receiver.bufSize) := by
  refine ⟨fun hchecked d hd hlong => ?_, runChecked_of_short⟩
  obtain ⟨⟨before, a⟩, hx, hreceipt⟩ := (machine.mem_callsTo receipt).mp hd
  obtain ⟨rfl, hrx⟩ := eq_received_of_receipt hreceipt
  have hstep := hchecked _ hx hrx
  rw [show recvfrom (rxBuffer clock before) d = d.take Receiver.bufSize ++
    (rxBuffer clock before).drop (d.take Receiver.bufSize).length from rfl,
    rxDatagramChecked_overlong hlong] at hstep
  cases hpkt : receivedPacket d <;> rw [hpkt] at hstep <;> cases hstep

theorem not_overlong_of_mem {frameId : UInt32} {frame d : List UInt8}
    (h : d ∈ UdpSender.frameDatagrams frameId frame) :
    ¬ OverlongPayload (d.take Receiver.bufSize) := by
  rw [take_bufSize_of_mem h]
  obtain ⟨pid, hpid, rfl⟩ := UdpSender.mem_frameDatagrams.mp h
  rintro ⟨-, hlong, -⟩
  have hle := UdpSender.packetSize_le frame pid
  rw [UdpSender.datagram, UdpPacketHeader.read_bytes, UdpSender.payloadSize_toNat] at hlong
  simp only [rxPayloadSize, maxUdpPayload] at hlong hle
  omega

/-- In every run with the sender and a network that loses, repeats, delays and reorders its
datagrams at will, no step of the receiver leaves an object. -/
theorem network_runChecked (frames : List (List UInt8 × List SendOutcome)) (clock : ℤ)
    (moves : List (NetworkMove ReceiverMove)) :
    RunChecked clock (receiverMoves frames clock moves) := by
  refine runChecked_of_short (fun d hd => ?_)
  obtain ⟨i, frame, outcomes, -, hmem⟩ :=
    frame_of_sent (sent_of_receipts (List.append_nil _).symm hd)
  exact not_overlong_of_mem hmem

end ReceiverState

end HvFrame
