import HvFrame.LossyNetworks
import HvFrame.LossyTransfer
import HvFrame.ReceivedFiles

/-!
# One sender and the receiver over UDP

The datagrams of a sender may be lost, repeated, delayed and reordered on their way, and the
receiver's threads run in any interleaving. Whatever the receiver reports of a frame, or writes of
it at the end, is what had arrived of one frame of the sender.
-/

namespace HvFrame

open UdpSender

theorem mem_sendFrames {s : UdpSender} {frames : List (List UInt8 × List SendOutcome)}
    {d : List UInt8} (h : d ∈ (sendFrames s frames).flatMap Prod.snd) :
    ∃ i frame outcomes, frames[i]? = some (frame, outcomes) ∧
      d ∈ frameDatagrams (s.frameId + UInt32.ofNat (i + 1)) frame := by
  induction frames generalizing s with
  | nil => cases h
  | cons f frames ih =>
    obtain ⟨frame, outcomes⟩ := f
    rw [sendFrames, List.flatMap_cons] at h
    rcases List.mem_append.mp h with h | h
    · exact ⟨0, frame, outcomes, rfl, mem_sendFrame h⟩
    · obtain ⟨i, frame', outcomes', hget, hd⟩ := ih h
      refine ⟨i + 1, frame', outcomes', hget, ?_⟩
      rwa [← succ_add_ofNat]

section Reports

variable {maxFrameSize : ℕ} {frame : List UInt8} {ps : List RxPacket} {r : FrameResult}

/-- A complete report of a frame whose packet count did not wrap is the frame. -/
theorem ShowsArrived.delivered (h : ShowsArrived maxFrameSize frame ps r) (hne : frame ≠ [])
    (hcount : Countable frame) (hcomplete : r.complete = true) : Delivered frame r := by
  have hall := h.completeFlag.mp hcomplete
  have hsize : r.frameSize = frame.length := by
    obtain ⟨pid, hpid, hend⟩ := exists_last hne hcount
    have hlast : sliceEnd frame pid = frame.length := by
      rw [sliceEnd, ← slotEnd_eq_min hpid 0, hend 0]
    rcases h.shown.size with ⟨-, hnone⟩ | ⟨pid', hreceived, hmax, hsize⟩
    · exact absurd (hall pid hpid) (hnone pid)
    · rcases (hmax pid (hall pid hpid)).lt_or_eq with hlt | rfl
      · have hlonger := sliceEnd_lt hlt hreceived.1
        have hle : sliceEnd frame pid' ≤ frame.length := Nat.min_le_right _ _
        omega
      · rw [hsize, hlast]
  refine ⟨h.state, hcomplete, by rw [h.corruptedFlag, hcomplete]; rfl, hsize, ?_⟩
  refine List.ext_getElem? (fun i => ?_)
  by_cases hi : i < r.frameSize
  · have hindex : i / maxUdpPayload < (packetCount frame).toNat := by
      rw [packetCount_toNat hcount]
      simp only [maxUdpPayload]
      omega
    rw [List.getElem?_take_of_lt hi, h.shown.bytes i hi, if_pos (hall _ (index_lt hindex))]
  · rw [List.getElem?_eq_none (by simp; omega), List.getElem?_eq_none (by omega)]

/-- A report or a file of the final flush shows the packets `ps` of the frame under its id; a
complete report of a frame whose packet count did not wrap is the frame. -/
def ManagerOutput.Shows (maxFrameSize : ℕ) (frameId : UInt32) (frame : List UInt8)
    (ps : List RxPacket) : ManagerOutput → Prop
  | .onFrameDone r => r.frameId = frameId ∧ ShowsArrived maxFrameSize frame ps r ∧
      (Countable frame → r.complete = true → Delivered frame r)
  | .writeFrameToFile buffer frameSize isPartial =>
      isPartial = true ∧ ShowsBytes maxFrameSize frame ps buffer frameSize

end Reports

namespace ReceiverState

def offered : ReceiverMove → Option (List UInt8)
  | .rx (.received datagram) => some datagram
  | _ => none

theorem eq_received_of_receipt {s : ReceiverState} {a : ReceiverMove} {d : List UInt8}
    (h : d ∈ receipt s a) : a = .rx (.received d) ∧ s.rx = .polling := by
  cases a with
  | rx outcome =>
    cases outcome with
    | received datagram =>
      cases hrx : s.rx with
      | polling =>
        simp only [receipt, hrx, List.mem_singleton] at h
        exact ⟨by rw [h], rfl⟩
      | _ => simp [receipt, hrx] at h
    | _ => cases h
  | _ => cases h

theorem offered_of_mem_receipts {clock : ℤ} {moves : List ReceiverMove} {d : List UInt8}
    (h : d ∈ receipts clock moves) : d ∈ moves.filterMap offered := by
  obtain ⟨⟨before, a⟩, hx, hd⟩ := (machine.mem_callsTo receipt).mp h
  obtain ⟨later, rfl⟩ := mem_positions_iff.mp hx
  obtain ⟨rfl, -⟩ := eq_received_of_receipt hd
  exact List.mem_filterMap.mpr ⟨_, List.mem_append_right _ List.mem_cons_self, rfl⟩

/-- A received datagram reaches the receive thread through its `recvfrom` only. -/
def udpPort : MessagePort ReceiverMove (List UInt8) where
  receive datagram := .rx (.received datagram)
  carried := offered
  carried_receive _ := rfl

def networkInit (frames : List (List UInt8 × List SendOutcome)) (clock : ℤ) :
    LossyNetwork (List UInt8) ReceiverState where
  unsent := (sendFrames .new frames).flatMap Prod.snd
  sent := []
  consumer := init clock

/-- The sender, the network and the receiver's threads. -/
def network : OutputMachine (LossyNetwork (List UInt8) ReceiverState) (NetworkMove ReceiverMove)
    ReceiverEvent := LossyNetwork.machine udpPort machine

def receiverMoves (frames : List (List UInt8 × List SendOutcome)) (clock : ℤ)
    (moves : List (NetworkMove ReceiverMove)) : List ReceiverMove :=
  network.callsTo (LossyNetwork.inputs udpPort) (networkInit frames clock) moves

variable {frames : List (List UInt8 × List SendOutcome)} {clock : ℤ}
variable {moves : List (NetworkMove ReceiverMove)}

theorem sent_of_receipts {before later : List ReceiverMove} {d : List UInt8}
    (hsplit : receiverMoves frames clock moves = before ++ later)
    (h : d ∈ receipts clock before) :
    d ∈ (network.state (networkInit frames clock) moves).sent := by
  refine LossyNetwork.sent_of_carried udpPort machine ?_
  change d ∈ (receiverMoves frames clock moves).filterMap offered
  rw [hsplit, List.filterMap_append]
  exact List.mem_append_left _ (offered_of_mem_receipts h)

/-- Every packet that is handed over comes from a datagram that was sent before. -/
theorem sent_of_arrival {before later : List ReceiverMove} {k : UInt32} {a : Arrival}
    (hsplit : receiverMoves frames clock moves = before ++ later)
    (h : a ∈ arrivals k (managerCalls clock before)) :
    ∃ d ∈ (network.state (networkInit frames clock) moves).sent, receivedPacket d = some a.pkt := by
  obtain ⟨d, hd, hpkt⟩ := List.mem_filterMap.mp (received_of_arrival h)
  exact ⟨d, sent_of_receipts hsplit hd, hpkt⟩

theorem frame_of_sent {d : List UInt8}
    (hd : d ∈ (network.state (networkInit frames clock) moves).sent) :
    ∃ i frame outcomes, frames[i]? = some (frame, outcomes) ∧
      d ∈ frameDatagrams (UInt32.ofNat (i + 1)) frame := by
  have hsends : (network.state (networkInit frames clock) moves).sent ++
      (network.state (networkInit frames clock) moves).unsent =
        (sendFrames .new frames).flatMap Prod.snd :=
    LossyNetwork.sends_run udpPort machine (List.nil_append _) moves
  have hstream : d ∈ (sendFrames .new frames).flatMap Prod.snd := by
    rw [← hsends]
    exact List.mem_append_left _ hd
  obtain ⟨i, frame, outcomes, hget, hmem⟩ := mem_sendFrames hstream
  have hid : UdpSender.new.frameId + UInt32.ofNat (i + 1) = UInt32.ofNat (i + 1) := zero_add _
  rw [hid] at hmem
  exact ⟨i, frame, outcomes, hget, hmem⟩

theorem own_of_sent {d : List UInt8} {p : RxPacket}
    (hd : d ∈ (network.state (networkInit frames clock) moves).sent)
    (hp : receivedPacket d = some p) :
    ∃ i frame outcomes, frames[i]? = some (frame, outcomes) ∧
      p.hdr.frameId = UInt32.ofNat (i + 1) ∧
      p ∈ receivedPackets (frameDatagrams (UInt32.ofNat (i + 1)) frame) := by
  obtain ⟨i, frame, outcomes, hget, hmem⟩ := frame_of_sent hd
  rw [receivedPacket_of_mem hmem] at hp
  have hpacket : p ∈ receivedPackets (frameDatagrams (UInt32.ofNat (i + 1)) frame) :=
    List.mem_filterMap.mpr ⟨d, hmem, hp⟩
  exact ⟨i, frame, outcomes, hget, frameId_of_mem_receivedPackets hpacket, hpacket⟩

/-- The output shows exactly some packets of one frame of the sender, and these are from
datagrams in `sent`. -/
def FromOneFrame (frames : List (List UInt8 × List SendOutcome)) (sent : List (List UInt8))
    (out : ManagerOutput) : Prop :=
  ∃ i frame outcomes ps, frames[i]? = some (frame, outcomes) ∧
    (∀ p ∈ ps, p ∈ receivedPackets (frameDatagrams (UInt32.ofNat (i + 1)) frame) ∧
      ∃ d ∈ sent, receivedPacket d = some p) ∧
    out.Shows Receiver.maxFrameSize (UInt32.ofNat (i + 1)) frame ps

theorem fromOneFrame_of_output (hlength : frames.length ≤ 2 ^ 32) {out : ManagerOutput}
    (h : .managed out ∈ network.outputs (networkInit frames clock) moves) :
    FromOneFrame frames (network.state (networkInit frames clock) moves).sent out := by
  have hrun := (LossyNetwork.consumer_run udpPort machine (networkInit frames clock) moves).2
  rw [network, hrun] at h
  obtain ⟨before, later, k, e, hsplit, he, hout⟩ := entry_of_output h
  have hids : e.reassembler.currentFrameId = k := manager_ids he
  rw [(manager_run clock before).1, FrameReassemblerManager.find?_eq_entryOf] at he
  set j := journal Receiver.maxFrameSize Receiver.payloadStride k (managerCalls clock before)
  have hsent : ∀ a ∈ j, ∃ d ∈ (network.state (networkInit frames clock) moves).sent,
      receivedPacket d = some a.pkt := fun a ha => sent_of_arrival hsplit (mem_journal ha)
  obtain ⟨a, ha⟩ := List.exists_mem_of_ne_nil j (fun hnil => by simp [hnil] at he)
  obtain ⟨d, hd, hpkt⟩ := hsent a ha
  obtain ⟨i, frame, outcomes, hget, hid, hpacket⟩ := own_of_sent hd hpkt
  have hk : k = UInt32.ofNat (i + 1) := (mem_arrivals_iff.mp (mem_journal ha)).2.symm.trans hid
  have hown : ∀ b ∈ j, b.pkt ∈ receivedPackets (frameDatagrams (UInt32.ofNat (i + 1)) frame) := by
    intro b hb
    obtain ⟨d', hd', hpkt'⟩ := hsent b hb
    obtain ⟨i', frame', outcomes', hget', hid', hpacket'⟩ := own_of_sent hd' hpkt'
    have hsame : UInt32.ofNat (i + 1) = UInt32.ofNat (i' + 1) :=
      hk.symm.trans ((mem_arrivals_iff.mp (mem_journal hb)).2.symm.trans hid')
    have hlt := (List.getElem?_eq_some_iff.mp hget).1
    have hlt' := (List.getElem?_eq_some_iff.mp hget').1
    obtain rfl := eq_of_ofNat_succ (by omega) (by omega) hsame
    obtain rfl := (Prod.mk.inj (Option.some.inj (hget.symm.trans hget'))).1
    exact hpacket'
  refine ⟨i, frame, outcomes, j.map Arrival.pkt, hget, ?_, ?_⟩
  · intro p hp
    obtain ⟨b, hb, rfl⟩ := List.mem_map.mp hp
    exact ⟨hown b hb, hsent b hb⟩
  · rcases hout with ⟨drops, rfl⟩ | rfl
    · have hshows := showsArrived_of_entryOf hown he drops
      have hne : frame ≠ [] := by
        obtain ⟨pid, hpid, -⟩ := mem_receivedPackets_frameDatagrams.mp hpacket
        exact List.ne_nil_of_length_pos (Nat.zero_lt_of_lt (offset_lt hpid))
      exact ⟨hids.trans hk, hshows, fun hcount hcomplete => hshows.delivered hne hcount hcomplete⟩
    · exact ⟨rfl, (showsArrived_of_entryOf hown he 0).shown⟩

/-- Whatever the network loses, repeats, delays or reorders, and in every interleaving: each
report, and each file of a frame that is not as it was before, shows exactly some packets of one
frame of the sender, and these had been sent. -/
theorem network_safe (hlength : frames.length ≤ 2 ^ 32) (clock : ℤ)
    (moves : List (NetworkMove ReceiverMove)) (disk : Disk) (answers : ℕ → String → Bool) :
    let sent := (network.state (networkInit frames clock) moves).sent
    let es := network.outputs (networkInit frames clock) moves
    let d := disk.after (writeLog answers es)
    (∀ out, .managed out ∈ es → FromOneFrame frames sent out) ∧
      ∀ (part : FramePart) isPartial, d (part.fileName isPartial) = disk (part.fileName isPartial) ∨
        ∃ out, .managed out ∈ es ∧ FromOneFrame frames sent out ∧
          out.writeCall.isPartial = isPartial ∧
          d (part.fileName isPartial) = some (out.writeCall.part part) := by
  intro sent es d
  refine ⟨fun out hout => fromOneFrame_of_output hlength hout, fun part isPartial => ?_⟩
  have hshows := disk.after_fileName (writeLog answers es) part isPartial
  cases hlast : ((writeLog answers es).filter
      (LoggedWrite.replaces part isPartial)).getLast? with
  | none =>
    rw [hlast] at hshows
    exact Or.inl hshows
  | some l =>
    rw [hlast] at hshows
    have hmem := List.mem_of_getLast? hlast
    obtain ⟨out, hout, hcall⟩ := output_of_mem_writeLog (List.mem_of_mem_filter hmem)
    obtain ⟨e, he, hmanaged⟩ := List.mem_filterMap.mp hout
    obtain ⟨out', rfl⟩ : ∃ out', e = .managed out' := by
      cases e with
      | managed out' => exact ⟨out', rfl⟩
      | _ => cases hmanaged
    obtain rfl := Option.some.inj hmanaged
    have hreplaces := List.of_mem_filter hmem
    simp only [LoggedWrite.replaces, Bool.and_eq_true, beq_iff_eq] at hreplaces
    refine Or.inr ⟨_, he, fromOneFrame_of_output hlength he, ?_, ?_⟩
    · rw [hcall]
      exact hreplaces.1.2
    · rw [hcall]
      exact hshows

def secondDelivered : List (NetworkMove ReceiverMove) :=
  [.send, .send, .own (.rx .timeout), .deliver 1, .own (.rx .timeout)] ++
    List.replicate 4 (.own .worker) ++ [.own (.advance 30000001)] ++
    List.replicate 3 (.own .worker)

theorem network_safe_second :
    let sent := (network.state (networkInit [(twoPacketFrame, [.sent, .sent])] 0)
      secondDelivered).sent
    let es := network.outputs (networkInit [(twoPacketFrame, [.sent, .sent])] 0) secondDelivered
    let d := Disk.after (fun _ => none) (writeLog (fun _ _ => true) es)
    (∃ r, .managed (.onFrameDone r) ∈ es) ∧
      (∀ out, .managed out ∈ es → FromOneFrame [(twoPacketFrame, [.sent, .sent])] sent out) ∧
      ∀ (part : FramePart) isPartial, d (part.fileName isPartial) = none ∨
        ∃ out, .managed out ∈ es ∧
          FromOneFrame [(twoPacketFrame, [.sent, .sent])] sent out ∧
          out.writeCall.isPartial = isPartial ∧
          d (part.fileName isPartial) = some (out.writeCall.part part) := by
  intro sent es d
  have hone : 0 < (reports es).length := by decide +kernel
  obtain ⟨r, hr⟩ := List.length_pos_iff_exists_mem.mp hone
  exact ⟨⟨r, mem_reports.mp hr⟩, network_safe (by decide) 0 secondDelivered _ _⟩

end ReceiverState

end HvFrame
