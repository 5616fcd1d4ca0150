import HvFrame.FrameReassembler
import HvFrame.ReassemblerRuns
import HvFrame.SentFrames
import Mathlib.Data.List.GetD

/-!
# The bitmap reassembler refines the plain one

Fed the packets of one frame, the map of `FrameReassembler` and the bitmap and buffer of
`FrameReassemblerV2` stay in step: they hold the same indices, and under each held index the
sender's slice. So both are complete at the same time, and with the same bytes.
-/

namespace HvFrame

open UdpSender

/-- A packet given to the plain reassembler, with the clock readings of its `pushPacket`. -/
structure TimedPush where
  pkt : RxPacket
  clock : PushClock

namespace FrameReassembler

def pushAll (r : FrameReassembler) (pushes : List TimedPush) : FrameReassembler :=
  pushes.foldl (fun r x => r.pushPacket x.pkt.hdr x.pkt.payload x.clock) r

/-- Both call the frame complete or neither does, and a complete frame pops as the buffer's. -/
structure Agrees (old : FrameReassembler) (fr : FrameReassemblerV2) : Prop where
  complete : old.frameComplete = fr.isFrameComplete
  popped : old.frameComplete = true → old.popFrame.2 = fr.frameBuffer.take fr.frameSize

/-- Both hold the same indices of the frame, and the sender's bytes under them. -/
structure Mirrors (maxFrameSize : ℕ) (frameId : UInt32) (frame : List UInt8) (start : ℤ)
    (old : FrameReassembler) (fr : FrameReassemblerV2) : Prop where
  usable : fr.Usable maxFrameSize maxUdpPayload
  announced : fr.expectedPacketCount = packetCount frame
  id : old.currentFrameId = frameId
  expected : old.expectedPacketCount = packetCount frame
  started : old.frameStartTime = start
  counters : old.receivedPacketCount = fr.receivedPacketsCount
  held : ∀ pid, old.packets.find? pid = if fr.hasPacket pid then some (slice frame pid) else none
  bytes : ∀ pid pos, fr.hasPacket pid = true → pos / maxUdpPayload = pid.toNat →
    pos < frame.length → fr.frameBuffer[pos]? = frame[pos]?
  covers : ∀ pid, fr.hasPacket pid = true →
    min ((pid.toNat + 1) * maxUdpPayload) frame.length ≤ fr.frameSize
  extent : fr.frameSize ≤ min ((packetCount frame).toNat * maxUdpPayload) frame.length

end FrameReassembler

theorem UdpSender.slotEnd_eq_min {frame : List UInt8} {pid : UInt16}
    (h : pid < packetCount frame) (frameId : UInt32) :
    slotEnd maxUdpPayload (header frameId frame pid) =
      min ((pid.toNat + 1) * maxUdpPayload) frame.length := by
  have hoffset := offset_lt h
  rw [slotEnd_header, packetSize, Nat.add_mul]
  omega

/-- Copying a slice to its slot puts the frame's bytes there and touches no other slot. -/
theorem UdpSender.getElem?_copySlice {frame buf : List UInt8} {pos : ℕ} (frameId : UInt32)
    (pid : UInt16) (hpos : pos < frame.length) (hlen : pos < buf.length) :
    (blockCopy buf (pid.toNat * maxUdpPayload) (packet frameId frame pid).payload
        (packetSize frame pid))[pos]? =
      if pos / maxUdpPayload = pid.toNat then frame[pos]? else buf[pos]? := by
  have hdiv := Nat.div_add_mod pos maxUdpPayload
  have hmod : pos % maxUdpPayload < maxUdpPayload := Nat.mod_lt _ (by decide)
  rw [Nat.mul_comm] at hdiv
  split_ifs with hslot
  · rw [hslot] at hdiv
    have hinside : pos - pid.toNat * maxUdpPayload < packetSize frame pid := by
      rw [packetSize]
      omega
    have hback : pid.toNat * maxUdpPayload + (pos - pid.toNat * maxUdpPayload) = pos := by omega
    rw [getElem?_blockCopy_inside _ (by omega) (by omega) hlen]
    simp only [packet, slice, List.getD_eq_getElem?_getD, List.getElem?_take_of_lt hinside,
      List.getElem?_drop, hback, List.getElem?_eq_getElem hpos, Option.getD_some]
  · refine getElem?_blockCopy_outside _ ?_
    have hsize := packetSize_le frame pid
    simp only [maxUdpPayload] at hdiv hmod hsize hslot ⊢
    omega

namespace FrameReassemblerV2

variable {fr : FrameReassemblerV2} {hdr : UdpPacketHeader}

theorem startNewFrame_hasPacket (fr : FrameReassemblerV2) (frameId : UInt32)
    (packetCount pid : UInt16) : (fr.startNewFrame frameId packetCount).hasPacket pid = false := by
  have hdef : (fr.startNewFrame frameId packetCount).hasPacket pid =
      if packetCount ≤ pid then false
      else (List.replicate packetCount.toNat false).getD pid.toNat false := rfl
  rw [hdef, List.getD_eq_getElem?_getD, List.getElem?_getD_replicate_default_eq, ite_self]

theorem store_hasPacket (wf : fr.WellFormed) (hrange : hdr.packetId < fr.expectedPacketCount)
    (payload : ℕ → UInt8) (offset : ℕ) (pid : UInt16) :
    (fr.store hdr payload offset).hasPacket pid =
      (decide (pid = hdr.packetId) || fr.hasPacket pid) := by
  have hlt : hdr.packetId.toNat < fr.packetReceived.length := by
    rw [wf.bitmap]
    exact UInt16.lt_iff_toNat_lt.mp hrange
  by_cases hpid : pid = hdr.packetId
  · simp [hasPacket, store, hpid, List.getD_eq_getElem?_getD, hlt, UInt16.not_le.mpr hrange]
  · have hne : hdr.packetId.toNat ≠ pid.toNat := fun h => hpid (UInt16.toNat_inj.mp h.symm)
    simp [hasPacket, store, hpid, List.getD_eq_getElem?_getD, List.getElem?_set_ne hne]

end FrameReassemblerV2

namespace FrameReassembler

variable {maxFrameSize : ℕ} {frameId : UInt32} {frame : List UInt8} {start : ℤ}
variable {old : FrameReassembler} {fr : FrameReassemblerV2} {pid : UInt16}

theorem mirrors_start (h : fr.Usable maxFrameSize maxUdpPayload) (old : FrameReassembler)
    (frameId : UInt32) (frame : List UInt8) (start : ℤ) :
    Mirrors maxFrameSize frameId frame start
      (old.startNewFrame frameId (packetCount frame) start)
      (fr.startNewFrame frameId (packetCount frame)) := by
  have hnone := fr.startNewFrame_hasPacket frameId (packetCount frame)
  refine ⟨h.startNewFrame _ _, rfl, rfl, rfl, rfl, rfl, ?_, ?_, ?_, Nat.zero_le _⟩
  · intro pid
    rw [hnone]
    rfl
  · intro pid pos hpid
    simp [hnone] at hpid
  · intro pid hpid
    simp [hnone] at hpid

theorem Mirrors.admission (h : Mirrors maxFrameSize frameId frame start old fr)
    (hfits : frame.length ≤ maxFrameSize) (hpid : pid < packetCount frame) :
    fr.admission (header frameId frame pid) =
      if fr.hasPacket pid then .duplicate else .accepted (pid.toNat * maxUdpPayload) := by
  have hrange : ¬ fr.expectedPacketCount ≤ pid := by
    rw [h.announced]
    exact UInt16.not_le.mpr hpid
  have hroom : ¬ fr.maxFrameSize < slotEnd fr.payloadStride (header frameId frame pid) := by
    have hend : slotEnd maxUdpPayload (header frameId frame pid) ≤ frame.length := slotEnd_le hpid
    rw [h.usable.maxSize, h.usable.stride]
    omega
  have hoffset : slotOffset fr.payloadStride pid = pid.toNat * maxUdpPayload := by
    rw [h.usable.stride]
    exact FrameReassemblerV2.slotOffset_eq (by decide) pid
  have hindex : (header frameId frame pid).packetId = pid := rfl
  simp only [FrameReassemblerV2.admission, FrameReassemblerV2.hasPacket, hindex, hrange, hroom,
    if_false, hoffset]

theorem store_packet (hnew : old.packets.find? pid = none) (frameId : UInt32)
    (frame : List UInt8) :
    old.store (header frameId frame pid) (packet frameId frame pid).payload =
      { old with
        packets := old.packets.insert pid (slice frame pid)
        receivedPacketCount := old.receivedPacketCount + 1 } := by
  have hpayload : (List.range (packetSize frame pid)).map (packet frameId frame pid).payload =
      slice frame pid := by
    rw [← slice_length]
    exact map_range_getD _ _
  rw [store_new hnew, payloadSize_toNat, hpayload]
  rfl

theorem Mirrors.stored (h : Mirrors maxFrameSize frameId frame start old fr)
    (hfits : frame.length ≤ maxFrameSize) (hpid : pid < packetCount frame)
    (hnew : fr.hasPacket pid = false)
    (husable : (fr.store (header frameId frame pid) (packet frameId frame pid).payload
      (pid.toNat * maxUdpPayload)).Usable maxFrameSize maxUdpPayload) :
    Mirrors maxFrameSize frameId frame start
      (old.store (header frameId frame pid) (packet frameId frame pid).payload)
      (fr.store (header frameId frame pid) (packet frameId frame pid).payload
        (pid.toNat * maxUdpPayload)) := by
  have hrange : (header frameId frame pid).packetId < fr.expectedPacketCount := by
    rw [h.announced]
    exact hpid
  have hhas := FrameReassemblerV2.store_hasPacket h.usable.wellFormed hrange
    (packet frameId frame pid).payload (pid.toNat * maxUdpPayload)
  have hindex : (header frameId frame pid).packetId = pid := rfl
  rw [hindex] at hhas
  have hend := slotEnd_eq_min hpid frameId
  rw [store_packet (by simp [h.held, hnew])]
  refine ⟨husable, h.announced, h.id, h.expected, h.started, ?_, ?_, ?_, ?_, ?_⟩
  · simp only [FrameReassemblerV2.store, h.counters]
  · intro pid'
    rw [OrderedMap.find?_insert, h.held, hhas]
    by_cases hp : pid = pid'
    · simp [hp]
    · simp [hp, Ne.symm hp]
  · intro pid' pos hhas' hslot hpos
    have hlen : pos < fr.frameBuffer.length := by
      rw [h.usable.wellFormed.buffer, h.usable.maxSize]
      omega
    rw [hhas, Bool.or_eq_true, decide_eq_true_iff] at hhas'
    simp only [FrameReassemblerV2.store, payloadSize_toNat]
    rw [getElem?_copySlice frameId pid hpos hlen]
    split_ifs with hp
    · rfl
    · have hne : pid' ≠ pid := fun he => hp (he ▸ hslot)
      exact h.bytes pid' pos (hhas'.resolve_left hne) hslot hpos
  · intro pid' hhas'
    rw [hhas, Bool.or_eq_true, decide_eq_true_iff] at hhas'
    simp only [FrameReassemblerV2.store, h.usable.stride, hend]
    rcases hhas' with rfl | hhas'
    · exact le_max_right _ _
    · exact (h.covers pid' hhas').trans (le_max_left _ _)
  · have hlt : pid.toNat + 1 ≤ (packetCount frame).toNat := UInt16.lt_iff_toNat_lt.mp hpid
    have hmul := Nat.mul_le_mul_right maxUdpPayload hlt
    have hextent := h.extent
    simp only [FrameReassemblerV2.store, h.usable.stride, hend]
    omega

/-- One packet of the frame, in time, keeps the two in step. -/
theorem Mirrors.pushPacket (h : Mirrors maxFrameSize frameId frame start old fr)
    (hfits : frame.length ≤ maxFrameSize) (hpid : pid < packetCount frame) {clock : PushClock}
    (hclock : (clock.timeoutNow - start).tdiv 1000000 ≤ frameTimeoutMs) :
    Mirrors maxFrameSize frameId frame start
      (old.pushPacket (header frameId frame pid) (packet frameId frame pid).payload clock)
      (fr.pushPacket (header frameId frame pid) (packet frameId frame pid).payload false) := by
  have husable := h.usable.pushPacket (header frameId frame pid)
    (packet frameId frame pid).payload false
  have hadmission := h.admission hfits hpid
  have htime : old.isTimeout clock.timeoutNow = false := by
    simpa [isTimeout, h.started] using hclock
  have hindex : (header frameId frame pid).packetId = pid := rfl
  rw [FrameReassembler.pushPacket, enterFrame_same h.id.symm]
  simp only [htime, Bool.false_eq_true, if_false]
  cases hhas : fr.hasPacket pid with
  | true =>
    have hkept : fr.pushPacket (header frameId frame pid) (packet frameId frame pid).payload
        false = fr := by
      simp [FrameReassemblerV2.pushPacket, hadmission, hhas]
    have hheld : (old.packets.find? (header frameId frame pid).packetId).isSome = true := by
      rw [hindex, h.held, if_pos hhas]
      rfl
    rw [hkept, store_held hheld]
    exact h
  | false =>
    have hstored : fr.pushPacket (header frameId frame pid) (packet frameId frame pid).payload
        false = fr.store (header frameId frame pid) (packet frameId frame pid).payload
          (pid.toNat * maxUdpPayload) := by
      simp [FrameReassemblerV2.pushPacket, hadmission, hhas]
    rw [hstored] at husable ⊢
    exact h.stored hfits hpid hhas husable

/-- Two reassemblers in step are complete together, and pop the same bytes. -/
theorem Mirrors.agrees (h : Mirrors maxFrameSize frameId frame start old fr)
    (hpos : 0 < packetCount frame) : Agrees old fr := by
  have hcomplete : old.frameComplete =
      decide (fr.receivedPacketsCount = fr.expectedPacketCount) := by
    simp [frameComplete, h.expected, h.announced, h.counters, hpos]
  refine ⟨by simp [hcomplete, FrameReassemblerV2.isFrameComplete, h.usable.wellFormed.clean],
    fun hdone => ?_⟩
  have hbits : ∀ pid < packetCount frame, fr.hasPacket pid = true := by
    intro pid hpid
    rw [hcomplete, decide_eq_true_iff, h.usable.wellFormed.received_eq_iff, h.announced] at hdone
    have hbit := hdone pid.toNat (UInt16.lt_iff_toNat_lt.mp hpid)
    simp [FrameReassemblerV2.hasPacket, h.announced, UInt16.not_le.mpr hpid,
      List.getD_eq_getElem?_getD, hbit]
  have hjoin : joinPackets old.packets old.expectedPacketCount.toNat =
      some (frame.take ((packetCount frame).toNat * maxUdpPayload)) := by
    rw [h.expected, ← flatMap_slices]
    refine joinPackets_eq_some (fun i hi => ?_)
    rw [h.held, hbits _ (index_lt hi), if_pos rfl]
  have hcount : 0 < (packetCount frame).toNat := UInt16.lt_iff_toNat_lt.mp hpos
  have hlast : (packetCount frame).toNat - 1 < (packetCount frame).toNat := by omega
  have hcovers := h.covers _ (hbits _ (index_lt hlast))
  have hextent := h.extent
  rw [index_toNat hlast, Nat.sub_add_cancel hcount] at hcovers
  rw [popFrame_of_complete hdone hjoin]
  refine List.ext_getElem? (fun pos => ?_)
  rcases Nat.lt_or_ge pos fr.frameSize with hlt | hge
  · have hslot : pos / maxUdpPayload < (packetCount frame).toNat :=
      Nat.div_lt_of_lt_mul (by rw [Nat.mul_comm]; omega)
    rw [List.getElem?_take_of_lt (by omega), List.getElem?_take_of_lt hlt,
      h.bytes _ pos (hbits _ (index_lt hslot)) (index_toNat hslot).symm (by omega)]
  · rw [List.getElem?_eq_none (by simp; omega), List.getElem?_eq_none (by simp; omega)]

theorem pushPacket_other {hdr : UdpPacketHeader} (h : old.currentFrameId ≠ hdr.frameId)
    (payload : ℕ → UInt8) (clock : PushClock) :
    old.pushPacket hdr payload clock =
      (old.startNewFrame hdr.frameId hdr.packetCount clock.startNow).pushPacket hdr payload
        clock := by
  have hsame : hdr.frameId =
      (old.startNewFrame hdr.frameId hdr.packetCount clock.startNow).currentFrameId := rfl
  rw [pushPacket, pushPacket, enterFrame_other (Ne.symm h), enterFrame_same hsame]

theorem Mirrors.pushAll (h : Mirrors maxFrameSize frameId frame start old fr)
    (hfits : frame.length ≤ maxFrameSize) {pushes : List TimedPush}
    (hsent : ∀ x ∈ pushes, x.pkt ∈ receivedPackets (frameDatagrams frameId frame))
    (htime : ∀ x ∈ pushes, (x.clock.timeoutNow - start).tdiv 1000000 ≤ frameTimeoutMs) :
    Mirrors maxFrameSize frameId frame start (old.pushAll pushes)
      (fr.pushAll (pushes.map TimedPush.pkt)) := by
  induction pushes generalizing old fr with
  | nil => exact h
  | cons x pushes ih =>
    obtain ⟨pkt, clock⟩ := x
    obtain ⟨pid, hpid, hpkt⟩ := mem_receivedPackets_frameDatagrams.mp (hsent _ List.mem_cons_self)
    obtain rfl : pkt = packet frameId frame pid := hpkt
    have hstep := h.pushPacket hfits hpid (htime _ List.mem_cons_self)
    exact ih hstep (fun y hy => hsent y (List.mem_cons_of_mem _ hy))
      (fun y hy => htime y (List.mem_cons_of_mem _ hy))

/-- The first packet of a frame starts it in the plain reassembler, and from then on the two
agree after every packet; before it they agree unless the plain one holds an older frame. -/
theorem agrees_pushAll (hfits : frame.length ≤ maxFrameSize) (history : List ReassemblerCall)
    {first : TimedPush} {rest : List TimedPush} (hother : old.currentFrameId ≠ frameId)
    (hsent : ∀ x ∈ first :: rest, x.pkt ∈ receivedPackets (frameDatagrams frameId frame))
    (htime : ∀ x ∈ first :: rest,
      (x.clock.timeoutNow - first.clock.startNow).tdiv 1000000 ≤ frameTimeoutMs)
    {pushed : List TimedPush} (hpushed : pushed <+: first :: rest)
    (hbegun : pushed ≠ [] ∨ old.frameComplete = false) :
    Agrees (old.pushAll pushed)
      (((FrameReassemblerV2.machine.state (.new maxFrameSize maxUdpPayload) history).startNewFrame
        frameId (packetCount frame)).pushAll (pushed.map TimedPush.pkt)) := by
  have husable := FrameReassemblerV2.usable_run maxFrameSize maxUdpPayload history
  have hmirrors := mirrors_start husable old frameId frame first.clock.startNow
  obtain ⟨pid, hpid, hpkt⟩ :=
    mem_receivedPackets_frameDatagrams.mp (hsent first List.mem_cons_self)
  have hpos : 0 < packetCount frame := lt_of_le_of_lt UInt16.zero_le hpid
  cases pushed with
  | nil =>
    have hold : (old.pushAll []).frameComplete = false := hbegun.resolve_left (by simp)
    have hstarted : (old.startNewFrame frameId (packetCount frame)
        first.clock.startNow).frameComplete = false := by
      simp [frameComplete, startNewFrame, reset, hpos.ne]
    have hnew := (hmirrors.agrees hpos).complete
    refine ⟨hold.trans (hstarted.symm.trans hnew), fun hdone => ?_⟩
    exact absurd hdone (by simp [hold])
  | cons x later =>
    obtain ⟨rfl, -⟩ := List.cons_prefix_cons.mp hpushed
    have hfirst : old.pushAll (x :: later) =
        (old.startNewFrame frameId (packetCount frame) x.clock.startNow).pushAll
          (x :: later) := by
      obtain ⟨pkt, clock⟩ := x
      obtain rfl : pkt = packet frameId frame pid := hpkt
      rw [pushAll, List.foldl_cons, pushPacket_other hother]
      rfl
    rw [hfirst]
    refine (hmirrors.pushAll hfits (fun y hy => hsent y ?_) (fun y hy => htime y ?_)).agrees hpos
    · exact hpushed.subset hy
    · exact hpushed.subset hy

def olderFrame : List TimedPush := [⟨packet 1 [7] 0, ⟨0, 0⟩⟩]

/-- The second packet of frame 2, its first, and the second again. -/
def secondFirst : List TimedPush :=
  [⟨packet 2 twoPacketFrame 1, ⟨1000000, 1000000⟩⟩,
    ⟨packet 2 twoPacketFrame 0, ⟨2000000, 2000000⟩⟩,
    ⟨packet 2 twoPacketFrame 1, ⟨3000000, 3000000⟩⟩]

theorem mem_secondFirst {x : TimedPush} (hx : x ∈ secondFirst) :
    x.pkt ∈ receivedPackets (frameDatagrams 2 twoPacketFrame) ∧
      (x.clock.timeoutNow - 1000000).tdiv 1000000 ≤ frameTimeoutMs := by
  simp only [secondFirst, List.mem_cons, List.not_mem_nil, or_false] at hx
  rcases hx with rfl | rfl | rfl
  · exact ⟨packet_mem_two length_twoPacketFrame (by decide), by decide⟩
  · exact ⟨packet_mem_two length_twoPacketFrame (by decide), by decide⟩
  · exact ⟨packet_mem_two length_twoPacketFrame (by decide), by decide⟩

/-- Both reassemblers have held frame 1, which the plain one still shows as complete, before
they are given the packets of frame 2. -/
theorem agrees_pushAll_secondFirst :
    ((new.pushAll olderFrame).pushAll secondFirst).frameComplete = true ∧
    Agrees ((new.pushAll olderFrame).pushAll secondFirst)
      (((FrameReassemblerV2.machine.state (.new Receiver.maxFrameSize maxUdpPayload)
        [.startNewFrame 1 1, .pushPacket (packet 1 [7] 0)]).startNewFrame 2
          (packetCount twoPacketFrame)).pushAll (secondFirst.map TimedPush.pkt)) := by
  refine ⟨by decide +kernel, ?_⟩
  exact agrees_pushAll twoPacketFrame_fits _ (by decide) (fun x hx => (mem_secondFirst hx).1)
    (fun x hx => (mem_secondFirst hx).2) (List.prefix_refl secondFirst) (Or.inl (by decide))

/-- Before the first packet the plain one may show an older frame as complete. -/
theorem not_agrees_everyPrefix :
    ¬ ∀ (earlier : List TimedPush) (frameId : UInt32) (frame : List UInt8) (first : TimedPush)
      (rest : List TimedPush), frame ≠ [] → frame.length ≤ Receiver.maxFrameSize →
      (new.pushAll earlier).currentFrameId ≠ frameId →
      (∀ x ∈ first :: rest, x.pkt ∈ receivedPackets (frameDatagrams frameId frame)) →
      (∀ x ∈ first :: rest,
        (x.clock.timeoutNow - first.clock.startNow).tdiv 1000000 ≤ frameTimeoutMs) →
      ∀ pushed, pushed <+: first :: rest → Agrees ((new.pushAll earlier).pushAll pushed)
        (((FrameReassemblerV2.new Receiver.maxFrameSize maxUdpPayload).startNewFrame frameId
          (packetCount frame)).pushAll (pushed.map TimedPush.pkt)) := by
  intro h
  have hempty := h olderFrame 2 twoPacketFrame _ _ twoPacketFrame_ne_nil twoPacketFrame_fits
    (by decide) (fun x hx => (mem_secondFirst hx).1) (fun x hx => (mem_secondFirst hx).2) []
    List.nil_prefix
  have hold : ((new.pushAll olderFrame).pushAll []).frameComplete = true := by decide
  have hnew : (((FrameReassemblerV2.new Receiver.maxFrameSize maxUdpPayload).startNewFrame 2
      (packetCount twoPacketFrame)).pushAll []).isFrameComplete = false := by
    decide +kernel
  exact Bool.false_ne_true (hnew.symm.trans (hempty.complete.symm.trans hold))

end FrameReassembler

end HvFrame
