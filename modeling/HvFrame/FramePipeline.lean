import HvFrame.FrameDelivery

/-!
# From the raw image to the received files

The encoder puts a 16-byte header in front of the image, while the receiver's buffer is
dimensioned for the image alone. The pipeline delivers exactly the images that leave room
for the header.
-/

namespace HvFrame

namespace CcsdsStubEncoder

/-- The header of an image; its `reserved` byte is zeroed and `frame_size` is 32 bits wide. -/
def header (raw : List UInt8) (width height : UInt16) (bitdepth : UInt8) : FrameHeader where
  magic := frameMagic
  version := protocolVersion
  width := width
  height := height
  bitdepth := bitdepth
  frameSize := UInt32.ofNat raw.length

def encode (raw : List UInt8) (width height : UInt16) (bitdepth : UInt8) : List UInt8 :=
  (header raw width height bitdepth).bytes ++ raw

theorem encode_length (raw : List UInt8) (width height : UInt16) (bitdepth : UInt8) :
    (encode raw width height bitdepth).length = FrameHeader.byteSize + raw.length := by
  rw [encode, List.length_append, FrameHeader.bytes_length]

theorem encode_ne_nil (raw : List UInt8) (width height : UInt16) (bitdepth : UInt8) :
    encode raw width height bitdepth ≠ [] := by
  refine List.ne_nil_of_length_pos ?_
  rw [encode_length, FrameHeader.byteSize]
  omega

end CcsdsStubEncoder

/-- The files of a complete result hold the image and its size. -/
structure ShowsImage (raw : List UInt8) (r : FrameResult) : Prop where
  state : r.state = .complete
  rawFile : ⟨frameFileName false "raw", raw⟩ ∈ workerOnFrameDone (fun _ => true) r
  headerFile : ∃ header,
    ⟨frameFileName false "header", header⟩ ∈ workerOnFrameDone (fun _ => true) r ∧
      FrameHeader.readFrameSize header = raw.length

/-- Whatever the image parameters, the sender, the socket's retries and the timely lossless
schedule, the first poll after the last packet reports the image. -/
def PipelineDelivers (raw : List UInt8) : Prop :=
  ∀ (width height : UInt16) (bitdepth : UInt8) (sender : UdpSender)
    (outcomes : List SendOutcome) (before pre post : List TimedCall) (poll : TimedCall),
    let frame := CcsdsStubEncoder.encode raw width height bitdepth
    let frameId := (sender.sendFrame frame outcomes).1.frameId
    let ps := receivedPackets (sender.sendFrame frame outcomes).2
    let m := FrameReassemblerManager.machine.state
      (FrameReassemblerManager.new Receiver.maxFrameSize Receiver.payloadStride) before
    UdpSender.Completes frame outcomes → m.frames.find? frameId = none →
    TimelyDelivery frameId ps (pre ++ poll :: post) → poll.IsPoll → AllArrived ps pre →
    UnpolledSinceComplete ps pre →
      ∃ r, reportsFor frameId
        ((FrameReassemblerManager.machine.state m pre).step poll).2 = [r] ∧ ShowsImage raw r

variable {raw : List UInt8}

theorem Delivered.showsImage {width height : UInt16} {bitdepth : UInt8} {r : FrameResult}
    (h : Delivered (CcsdsStubEncoder.encode raw width height bitdepth) r)
    (hsize : raw.length < 2 ^ 32) : ShowsImage raw r := by
  set hdr := CcsdsStubEncoder.header raw width height bitdepth with hhdr
  have hdata : r.frameData.take r.frameSize = hdr.bytes ++ raw := h.frameData
  have hlen : r.frameSize = FrameHeader.byteSize + raw.length :=
    h.frameSize.trans (CcsdsStubEncoder.encode_length raw width height bitdepth)
  have hbytes := hdr.bytes_length
  have hne : r.frameData ≠ [] := by
    intro hnil
    rw [hnil, List.take_nil] at hdata
    have hlength := congrArg List.length hdata
    rw [List.length_append, hbytes, FrameHeader.byteSize] at hlength
    simp at hlength
    omega
  have hraw : (r.frameData.drop FrameHeader.byteSize).take (r.frameSize - FrameHeader.byteSize) =
      raw := by
    rw [List.take_drop, Nat.add_sub_cancel' (by omega), hdata, ← hbytes, List.drop_left]
  have hheader : r.frameData.take FrameHeader.byteSize = hdr.bytes := by
    rw [← min_eq_left (show FrameHeader.byteSize ≤ r.frameSize by omega), ← List.take_take, hdata,
      ← hbytes, List.take_left]
  have hwrites : workerOnFrameDone (fun _ => true) r =
      [⟨frameFileName false "frame", r.frameData.take r.frameSize⟩,
        ⟨frameFileName false "header", hdr.bytes⟩, ⟨frameFileName false "raw", raw⟩] := by
    have hguard : (r.frameData.isEmpty || decide (r.frameSize < FrameHeader.byteSize)) = false := by
      simp [hne, hlen]
    simp [workerOnFrameDone, writeFrameToFile, hguard, h.state, hraw, hheader]
  refine ⟨h.state, by simp [hwrites], hdr.bytes, by simp [hwrites], ?_⟩
  have hfield := hdr.readFrameSize_bytes []
  rw [List.append_nil] at hfield
  rw [hfield, hhdr, CcsdsStubEncoder.header]
  exact UInt32.toNat_ofNat_of_lt' hsize

theorem countable_encode (hmax : raw.length ≤ Receiver.maxFrameSize) (width height : UInt16)
    (bitdepth : UInt8) :
    UdpSender.Countable (CcsdsStubEncoder.encode raw width height bitdepth) := by
  rw [UdpSender.Countable, CcsdsStubEncoder.encode_length]
  simp only [Receiver.maxFrameSize, maxUdpPayload, FrameHeader.byteSize] at hmax ⊢
  omega

theorem pipelineDelivers_of_fits
    (hfits : raw.length + FrameHeader.byteSize ≤ Receiver.maxFrameSize) :
    PipelineDelivers raw := by
  intro width height bitdepth sender outcomes before pre post poll frame frameId ps m hsent hfree
    htimely hpoll hall hunpolled
  have hps : ps = receivedPackets (UdpSender.frameDatagrams frameId frame) := by
    simp only [ps, frameId, UdpSender.sendFrame_completes sender hsent]
    rfl
  have hlen : frame.length ≤ Receiver.maxFrameSize := by
    rw [CcsdsStubEncoder.encode_length]
    omega
  have hsmall : raw.length < 2 ^ 32 := by
    simp only [Receiver.maxFrameSize, FrameHeader.byteSize] at hfits
    omega
  have hcount : UdpSender.Countable frame := countable_encode (by omega) width height bitdepth
  have hne := CcsdsStubEncoder.encode_ne_nil raw width height bitdepth
  rw [hps] at htimely hall hunpolled
  obtain ⟨r, hreports, hdelivered⟩ :=
    htimely.reports hne hcount hlen hpoll hall hunpolled (tracks_of_find?_none hfree)
  exact ⟨r, hreports, hdelivered.showsImage hsmall⟩

theorem journal_inOrderPushes (maxFrameSize payloadStride : ℕ) {frameId : UInt32}
    {ps : List RxPacket} (hid : ∀ p ∈ ps, p.hdr.frameId = frameId) :
    journal maxFrameSize payloadStride frameId (inOrderPushes ps) =
      ps.map (fun p => ⟨p, 0, 0⟩) := by
  have hcalls : inOrderPushes ps = [] ++ (ps.map (fun p => (⟨p, 0, 0⟩ : Arrival))).map
      Arrival.call := by
    rw [List.nil_append, List.map_map]
    rfl
  rw [hcalls]
  refine journal_pushes rfl (fun a ha => ?_)
  obtain ⟨p, hp, rfl⟩ := List.mem_map.mp ha
  exact hid p hp

/-- Without room for the header, the entry of all packets is neither complete nor timed out. -/
theorem timerVerdict_of_unfit {frame : List UInt8} (hne : frame ≠ [])
    (hcount : UdpSender.Countable frame) (hlong : Receiver.maxFrameSize < frame.length)
    {ps : List RxPacket} (hps : ps = receivedPackets (UdpSender.frameDatagrams 1 frame))
    {e : FrameEntry} (he : entryOf Receiver.maxFrameSize maxUdpPayload
      (ps.map (fun p => ⟨p, 0, 0⟩)) = some e) : e.timerVerdict 0 = none := by
  have hown : ∀ b ∈ ps.map (fun p => (⟨p, 0, 0⟩ : Arrival)),
      b.pkt ∈ receivedPackets (UdpSender.frameDatagrams 1 frame) := by
    intro b hb
    obtain ⟨p, hp, rfl⟩ := List.mem_map.mp hb
    exact hps ▸ hp
  have hzero : ∀ b ∈ ps.map (fun p => (⟨p, 0, 0⟩ : Arrival)), b.now = 0 := by
    intro b hb
    obtain ⟨p, -, rfl⟩ := List.mem_map.mp hb
    rfl
  cases hj : ps.map (fun p => (⟨p, 0, 0⟩ : Arrival)) with
  | nil => simp [hj] at he
  | cons a as =>
    rw [hj] at he hown hzero
    obtain ⟨hopen, hsent, -⟩ := arrivals_cons_sent Receiver.maxFrameSize hown
    have hfull : e.fullyReceived = false := by
      rw [← Bool.not_eq_true, fullyReceived_iff_holdsFrame he hopen hsent]
      intro hholds
      exact absurd (hholds.length_le hne hcount) (not_le.mpr hlong)
    have htimes : e.firstPacketTime = 0 ∧ e.lastUpdate = 0 := by
      obtain rfl := Option.some.inj he
      exact ⟨hzero a List.mem_cons_self, hzero _ (List.getLast_mem (List.cons_ne_nil a as))⟩
    have htime : e.timedOut 0 = false := by
      simp [FrameEntry.timedOut, htimes.1, htimes.2, maxFrameLifetime, frameIdleTimeout]
    simp [FrameEntry.timerVerdict, hfull, htime]

theorem not_pipelineDelivers (hmax : raw.length ≤ Receiver.maxFrameSize)
    (hlong : Receiver.maxFrameSize < raw.length + FrameHeader.byteSize) :
    ¬ PipelineDelivers raw := by
  intro h
  set frame := CcsdsStubEncoder.encode raw 0 0 0 with hframe
  have hcount : UdpSender.Countable frame := countable_encode hmax 0 0 0
  have hne : frame ≠ [] := CcsdsStubEncoder.encode_ne_nil raw 0 0 0
  have hlen : frame.length = FrameHeader.byteSize + raw.length :=
    CcsdsStubEncoder.encode_length raw 0 0 0
  set outcomes := List.replicate (UdpSender.packetCount frame).toNat SendOutcome.sent with houtcomes
  have hsent : UdpSender.Completes frame outcomes :=
    ⟨by simp [houtcomes, List.mem_replicate], by simp [houtcomes, List.mem_replicate],
      by simp [houtcomes]⟩
  set ps := receivedPackets (UdpSender.frameDatagrams 1 frame) with hps
  have hdatagrams : receivedPackets (UdpSender.new.sendFrame frame outcomes).2 = ps :=
    congrArg receivedPackets (UdpSender.sendFrame_completes UdpSender.new hsent)
  have hid : ∀ p ∈ ps, p.hdr.frameId = 1 := fun p hp => frameId_of_mem_receivedPackets hp
  obtain ⟨r, hr, -⟩ := h 0 0 0 UdpSender.new outcomes [] (inOrderPushes ps) []
    ⟨0, .pollTimers 0⟩ hsent rfl (by rw [hdatagrams]; exact timelyDelivery_inOrder hid) ⟨0, rfl⟩
    (by rw [hdatagrams]; exact allArrived_inOrderPushes ps)
    (by rw [hdatagrams]; exact unpolled_inOrderPushes ps)
  have htracks := ((FrameReassemblerManager.tracks_new Receiver.maxFrameSize maxUdpPayload 1).run
    (inOrderPushes ps)).1
  have hjournal := journal_inOrderPushes Receiver.maxFrameSize maxUdpPayload hid
  rw [journal] at hjournal
  rw [hjournal] at htracks
  have hskip := reportJournal_skip
    (fun e he => timerVerdict_of_unfit hne hcount (by omega) hps he) 0
  have hnone := (htracks.step ⟨0, .pollTimers 0⟩).2
  simp only [journalStep, hskip] at hnone
  have hsome := hnone.symm.trans hr
  cases hsome

/-- The pipeline delivers exactly the images that fit the frame buffer with their header. -/
theorem pipelineDelivers_iff (hmax : raw.length ≤ Receiver.maxFrameSize) :
    PipelineDelivers raw ↔ raw.length + FrameHeader.byteSize ≤ Receiver.maxFrameSize := by
  refine ⟨fun h => ?_, pipelineDelivers_of_fits⟩
  by_contra hlong
  exact not_pipelineDelivers hmax (not_le.mp hlong) h

/-- The largest image that leaves room for the header is delivered. -/
theorem pipelineDelivers_largest :
    PipelineDelivers (List.replicate (Receiver.maxFrameSize - FrameHeader.byteSize) 7) := by
  have hlen := List.length_replicate (n := Receiver.maxFrameSize - FrameHeader.byteSize)
    (a := (7 : UInt8))
  have hroom : FrameHeader.byteSize ≤ Receiver.maxFrameSize := by decide
  exact (pipelineDelivers_iff (by omega)).mpr (by omega)

/-- An image of the advertised size is not. -/
theorem not_pipelineDelivers_maxFrameSize :
    let raw := List.replicate Receiver.maxFrameSize 0
    raw ≠ [] ∧ raw.length ≤ Receiver.maxFrameSize ∧ ¬ PipelineDelivers raw := by
  intro raw
  have hlen : raw.length = Receiver.maxFrameSize := List.length_replicate
  refine ⟨List.ne_nil_of_length_pos ?_, hlen.le, not_pipelineDelivers hlen.le ?_⟩
  · rw [hlen]
    decide
  · rw [hlen]
    decide

end HvFrame
