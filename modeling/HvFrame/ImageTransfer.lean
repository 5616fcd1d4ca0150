import HvFrame.FramePipeline
import HvFrame.FrameTransfer
import HvFrame.ReceivedFiles

/-!
# An image from the sender's file to the receiver's files

The sender's `main` reads an image, writes `sender_header.bin` and sends the encoded frame. When
all its datagrams are received in time, the receiver's threads write the image and the same
header, whatever the order of the datagrams and the interleaving.
-/

namespace HvFrame

/-- `FileSource::getNextFrame` on a file that may be missing; an empty one counts as a failure. -/
def getNextFrame (file : Option (List UInt8)) : Option (List UInt8) :=
  file.filter (fun raw => !raw.isEmpty)

/-- What a run of the sender's `main` leaves behind. `headerFile` is `sender_header.bin`. -/
structure SenderRun where
  headerFile : Option (List UInt8)
  datagrams : List (List UInt8)

/-- `main` of the sender; `none` where it returns -1. -/
def senderMain (file : Option (List UInt8)) (outcomes : List SendOutcome) : Option SenderRun :=
  (getNextFrame file).map (fun raw =>
    let frame := CcsdsStubEncoder.encode raw 1920 1080 12
    { headerFile :=
        if FrameHeader.byteSize ≤ frame.length then some (frame.take FrameHeader.byteSize) else none
      datagrams := (UdpSender.new.sendFrame frame outcomes).2 })

namespace ReceiverState

variable {raw : List UInt8} {outcomes : List SendOutcome} {run : SenderRun} {clock : ℤ}
variable {receiving waiting polling : List ReceiverMove}

theorem senderMain_eq (hrun : senderMain (some raw) outcomes = some run)
    (hsent : UdpSender.Completes (CcsdsStubEncoder.encode raw 1920 1080 12) outcomes) :
    run.headerFile = some ((CcsdsStubEncoder.encode raw 1920 1080 12).take FrameHeader.byteSize) ∧
      run.datagrams = UdpSender.frameDatagrams 1 (CcsdsStubEncoder.encode raw 1920 1080 12) := by
  obtain ⟨raw', hraw, rfl⟩ := Option.map_eq_some_iff.mp hrun
  have hlength := CcsdsStubEncoder.encode_length raw 1920 1080 12
  rw [getNextFrame, Option.filter_some] at hraw
  split_ifs at hraw
  obtain rfl := Option.some.inj hraw
  have hlong : FrameHeader.byteSize ≤ (CcsdsStubEncoder.encode raw 1920 1080 12).length := by
    omega
  refine ⟨?_, UdpSender.sendFrame_completes UdpSender.new hsent⟩
  simp only [if_pos hlong]

theorem few_of_transfer {frame : List UInt8} {frameId : UInt32}
    (hfits : frame.length ≤ Receiver.maxFrameSize)
    (h : Transfer (UdpSender.frameDatagrams frameId frame) clock receiving waiting polling) :
    (receipts clock receiving).length ≤ Receiver.maxQueueSize := by
  have hcount : UdpSender.Countable frame := by
    simp only [UdpSender.Countable, Receiver.maxFrameSize, maxUdpPayload] at hfits ⊢
    omega
  rw [h.once.length_eq, UdpSender.frameDatagrams, List.length_map, List.length_range,
    UdpSender.packetCount_toNat hcount]
  simp only [Receiver.maxQueueSize, Receiver.maxFrameSize, maxUdpPayload] at hfits ⊢
  omega

/-- A transferred frame is all that is reported. -/
theorem reports_of_transfer {frame : List UInt8} (hne : frame ≠ [])
    (hfits : frame.length ≤ Receiver.maxFrameSize)
    (h : Transfer (UdpSender.frameDatagrams 1 frame) clock receiving waiting polling)
    (hinTime : InTime (arrivals 1 (managerCalls clock receiving))) :
    ∃ r, reports (machine.outputs (init clock) (receiving ++ (waiting ++ polling))) = [r] ∧
      Delivered frame r := by
  have hkept := kept_of_few (few_of_transfer hfits h)
  have hone : Transfer ([((1 : UInt32), frame)].flatMap (fun f =>
      UdpSender.frameDatagrams f.1 f.2)) clock receiving waiting polling := by
    rwa [List.flatMap_singleton]
  have hdistinct : ([((1 : UInt32), frame)].map Prod.fst).Nodup := List.nodup_singleton 1
  obtain ⟨r, hr, hdelivered⟩ := reported_of_transfer hdistinct hone hkept
    hinTime List.mem_cons_self hne hfits
  refine ⟨r, ?_, hdelivered⟩
  rw [← hr, List.filter_eq_self.mpr]
  intro r' hr'
  simpa using id_of_report hone hkept hr'

/-- When all datagrams that the sender's `main` sends of an image are received, each once and
soon enough, then in every interleaving the receiver's full files are the image, the header that
the sender wrote to its own file, and the frame of both. -/
theorem image_transfer (hfits : raw.length + FrameHeader.byteSize ≤ Receiver.maxFrameSize)
    (hrun : senderMain (some raw) outcomes = some run)
    (hsent : UdpSender.Completes (CcsdsStubEncoder.encode raw 1920 1080 12) outcomes)
    (htransfer : Transfer run.datagrams clock receiving waiting polling)
    (hinTime : InTime (arrivals 1 (managerCalls clock receiving)))
    {answers : ℕ → String → Bool} (hopen : ∀ n name, answers n name = true) (disk : Disk) :
    let d := disk.after (writeLog answers
      (machine.outputs (init clock) (receiving ++ (waiting ++ polling))))
    d (FramePart.fileName .raw false) = some raw ∧
      d (FramePart.fileName .header false) = run.headerFile ∧
      d (FramePart.fileName .frame false) =
        some (CcsdsStubEncoder.encode raw 1920 1080 12) := by
  intro d
  obtain ⟨hheader, hdatagrams⟩ := senderMain_eq hrun hsent
  have hlength := CcsdsStubEncoder.encode_length raw 1920 1080 12
  have hbytes := (CcsdsStubEncoder.header raw 1920 1080 12).bytes_length
  rw [hdatagrams] at htransfer
  obtain ⟨r, hreports, hdelivered⟩ := reports_of_transfer
    (CcsdsStubEncoder.encode_ne_nil raw 1920 1080 12) (by omega) htransfer hinTime
  have hsize : FrameHeader.byteSize ≤ r.frameSize := by
    rw [hdelivered.frameSize]
    omega
  have hshows : ∀ part : FramePart, d (part.fileName false) =
      some ((ManagerOutput.writeCall (.onFrameDone r)).part part) := by
    intro part
    have hlast := lastFull_eq hopen clock (receiving ++ (waiting ++ polling)) part
    rw [hreports, List.filter_cons_of_pos (by simpa using hsize)] at hlast
    have hshow := disk.after_fileName (writeLog answers
      (machine.outputs (init clock) (receiving ++ (waiting ++ polling)))) part false
    rw [hlast] at hshow
    exact hshow
  refine ⟨?_, ?_, ?_⟩
  · rw [hshows, WriteCall.part, ManagerOutput.writeCall, List.take_drop,
      Nat.add_sub_cancel' hsize, hdelivered.frameData, CcsdsStubEncoder.encode, ← hbytes,
      List.drop_left]
  · rw [hshows, hheader, ← hdelivered.frameData, List.take_take, min_eq_left hsize]
    rfl
  · rw [hshows, ← hdelivered.frameData]
    rfl

def twoPacketImage : List UInt8 := List.replicate 1385 7

theorem length_encode_twoPacketImage :
    (CcsdsStubEncoder.encode twoPacketImage 1920 1080 12).length = maxUdpPayload + 1 := by
  rw [CcsdsStubEncoder.encode_length, twoPacketImage, List.length_replicate]
  rfl

def swappedImage : List ReceiverMove :=
  receiveMoves (UdpSender.datagram 1 (CcsdsStubEncoder.encode twoPacketImage 1920 1080 12) 1) ++
    receiveMoves (UdpSender.datagram 1 (CcsdsStubEncoder.encode twoPacketImage 1920 1080 12) 0) ++
    List.replicate 9 .worker

theorem transfer_swappedImage :
    Transfer (UdpSender.frameDatagrams 1 (CcsdsStubEncoder.encode twoPacketImage 1920 1080 12)) 0
      swappedImage [.advance 5000000] (List.replicate 12 .worker) where
  once := by decide +kernel
  takenIn := by constructor <;> decide +kernel
  silent := by decide +kernel
  unsignalled := by simp [swappedImage, receiveMoves]
  waited := by decide
  polled := by decide

/-- An image of two datagrams arrives. -/
theorem image_transfer_swappedImage :
    let d := Disk.after (fun _ => none) (writeLog (fun _ _ => true) (machine.outputs (init 0)
      (swappedImage ++ ([.advance 5000000] ++ List.replicate 12 .worker))))
    let frame := CcsdsStubEncoder.encode twoPacketImage 1920 1080 12
    d (FramePart.fileName .raw false) = some twoPacketImage ∧
      d (FramePart.fileName .header false) = some (frame.take FrameHeader.byteSize) ∧
      d (FramePart.fileName .frame false) = some frame := by
  intro d frame
  have hsent := UdpSender.completes_two length_encode_twoPacketImage
  obtain ⟨run, hrun⟩ : ∃ run, senderMain (some twoPacketImage) [.sent, .retry, .sent] = some run :=
    ⟨_, rfl⟩
  obtain ⟨hheader, hdatagrams⟩ := senderMain_eq hrun hsent
  rw [← hheader]
  refine image_transfer ?_ hrun hsent ?_ (inTime_of_elapsed (by decide) 1) (fun _ _ => rfl) _
  · rw [twoPacketImage, List.length_replicate]
    decide
  · rw [hdatagrams]
    exact transfer_swappedImage

end ReceiverState

end HvFrame
