import HvFrame.ReportLabels
import HvFrame.SentFrames
import HvFrame.WriteOrder

/-!
# Holes in complete frames

A frame is complete when every index has been received. The lengths of the payloads are not
looked at, so a complete frame has a hole below its size wherever a packet other than the last
falls short of its slot and the packet before it does not reach over.
-/

namespace HvFrame

/-- The packets that the reassembler of a journal has stored. -/
def journalAccepted (maxFrameSize payloadStride : ℕ) : List Arrival → List RxPacket
  | [] => []
  | a :: as => ((FrameReassemblerV2.new maxFrameSize payloadStride).startNewFrame
      a.pkt.hdr.frameId a.pkt.hdr.packetCount).acceptedPackets ((a :: as).map Arrival.pkt)

/-- Every byte of the reported frame was written by a packet of its entry. -/
def NoHoles (maxFrameSize payloadStride : ℕ) (x : List Arrival × FrameResult) : Prop :=
  ∀ pos < x.2.frameSize, ∃ p ∈ journalAccepted maxFrameSize payloadStride x.1,
    (p.slotWrite payloadStride).Covers pos

/-- Every slot is filled to its end or to that of the frame, by its own packet or by the one
before it. -/
def SlotsFilled (maxFrameSize payloadStride : ℕ) (x : List Arrival × FrameResult) : Prop :=
  ∀ i < x.2.expectedPackets.toNat, ∃ p ∈ journalAccepted maxFrameSize payloadStride x.1,
    (p.hdr.packetId.toNat = i ∨ p.hdr.packetId.toNat + 1 = i) ∧
      min ((i + 1) * payloadStride) x.2.frameSize ≤
        p.hdr.packetId.toNat * payloadStride + p.hdr.payloadSize.toNat

variable {maxFrameSize payloadStride : ℕ} {calls : List TimedCall}
variable {x : List Arrival × FrameResult}

structure ShowsAccepted (payloadStride : ℕ) (accepted : List RxPacket) (r : FrameResult) :
    Prop where
  ends : ∀ p ∈ accepted,
    p.hdr.packetId.toNat * payloadStride + p.hdr.payloadSize.toNat ≤ r.frameSize
  reached : r.frameSize = 0 ∨ ∃ p ∈ accepted,
    r.frameSize = p.hdr.packetId.toNat * payloadStride + p.hdr.payloadSize.toNat
  indices : r.complete = true → ∀ i < r.expectedPackets.toNat,
    ∃ p ∈ accepted, p.hdr.packetId.toNat = i
  announced : ∀ p ∈ accepted, p.hdr.packetId.toNat < r.expectedPackets.toNat

theorem mem_journalAccepted_iff {a : Arrival} {as : List Arrival} {p : RxPacket} :
    p ∈ journalAccepted maxFrameSize payloadStride (a :: as) ↔
      storedPacket maxFrameSize payloadStride a.pkt.hdr.packetCount ((a :: as).map Arrival.pkt)
        p.hdr.packetId.toNat = some p :=
  (FrameReassemblerV2.usable_new maxFrameSize payloadStride).mem_acceptedPackets_iff _ _

theorem showsAccepted_of_reported (hstride : payloadStride ≤ 2 ^ 32)
    (h : x ∈ reportedJournals maxFrameSize payloadStride calls) :
    ShowsAccepted payloadStride (journalAccepted maxFrameSize payloadStride x.1) x.2 := by
  obtain ⟨j, r⟩ := x
  obtain ⟨e, state, drops, he, rfl⟩ := entry_of_mem_reportedJournals h
  cases j with
  | nil => simp at he
  | cons a as =>
    have href := entryOf_reflects he
    have hend := FrameReassemblerV2.slotEnd_eq hstride
    have hmem : ∀ {i p}, storedPacket maxFrameSize payloadStride a.pkt.hdr.packetCount
        ((a :: as).map Arrival.pkt) i = some p →
        p ∈ journalAccepted maxFrameSize payloadStride (a :: as) ∧ p.hdr.packetId.toNat = i := by
      intro i p hp
      obtain ⟨-, -, hindex, -⟩ := storedPacket_some hp
      exact ⟨mem_journalAccepted_iff.mpr (hindex ▸ hp), hindex⟩
    refine ⟨fun p hp => ?_, ?_, fun hcomplete i hi => ?_, fun p hp => ?_⟩
    · rw [← hend]
      exact href.covers _ _ (mem_journalAccepted_iff.mp hp)
    · rcases href.reached with hzero | ⟨i, p, hp, hsize⟩
      · exact Or.inl hzero
      · rw [hend] at hsize
        exact Or.inr ⟨p, (hmem hp).1, hsize⟩
    · have hall := href.complete_iff.mp (by simpa [FrameEntry.result, FrameEntry.fullyReceived]
        using hcomplete)
      simp only [FrameEntry.result, href.expected] at hi
      obtain ⟨p, hp⟩ := Option.isSome_iff_exists.mp (hall i hi)
      exact ⟨p, hmem hp⟩
    · simp only [FrameEntry.result, href.expected]
      exact (storedPacket_some (mem_journalAccepted_iff.mp hp)).1

theorem journalAccepted_subset (maxFrameSize payloadStride : ℕ) (j : List Arrival) :
    journalAccepted maxFrameSize payloadStride j ⊆ j.map Arrival.pkt := by
  cases j with
  | nil => exact List.nil_subset _
  | cons a as => exact FrameReassemblerV2.acceptedPackets_subset _ _

/-- Filled slots leave no hole: a position behind the last slot belongs to the packet that
determines the size. -/
theorem noHoles_of_slotsFilled
    (hshows : ShowsAccepted Receiver.payloadStride
      (journalAccepted maxFrameSize Receiver.payloadStride x.1) x.2)
    (h : SlotsFilled maxFrameSize Receiver.payloadStride x) :
    NoHoles maxFrameSize Receiver.payloadStride x := by
  intro pos hpos
  have hdiv := Nat.div_add_mod pos Receiver.payloadStride
  have hmod : pos % Receiver.payloadStride < Receiver.payloadStride := Nat.mod_lt _ (by decide)
  by_cases hslot : pos / Receiver.payloadStride < x.2.expectedPackets.toNat
  · obtain ⟨p, hp, hindex, hend⟩ := h _ hslot
    refine ⟨p, hp, (p.slotWrite_covers_iff (by decide) pos).mpr ?_⟩
    simp only [Receiver.payloadStride] at hdiv hmod hindex hend ⊢
    omega
  · obtain ⟨p, hp, hsize⟩ := hshows.reached.resolve_left (by omega)
    have hindex := hshows.announced p hp
    refine ⟨p, hp, (p.slotWrite_covers_iff (by decide) pos).mpr ?_⟩
    simp only [Receiver.payloadStride] at hdiv hmod hslot hsize ⊢
    omega

/-- No payload is long enough to reach over a whole slot, so a slot without a hole is filled by
its own packet or by the one before it. -/
theorem slotsFilled_of_noHoles
    (hshows : ShowsAccepted Receiver.payloadStride
      (journalAccepted maxFrameSize Receiver.payloadStride x.1) x.2)
    (hfits : ∀ p ∈ journalAccepted maxFrameSize Receiver.payloadStride x.1,
      p.hdr.payloadSize.toNat ≤ rxPayloadSize)
    (hcomplete : x.2.complete = true) (h : NoHoles maxFrameSize Receiver.payloadStride x) :
    SlotsFilled maxFrameSize Receiver.payloadStride x := by
  intro i hi
  by_cases hbelow : i * Receiver.payloadStride < x.2.frameSize
  · -- the last byte of the slot, or of the frame in it
    obtain ⟨p, hp, hcovers⟩ := h (min ((i + 1) * Receiver.payloadStride) x.2.frameSize - 1)
      (by simp only [Receiver.payloadStride] at hbelow ⊢; omega)
    have hsize := hfits p hp
    obtain ⟨hlow, hhigh⟩ := (p.slotWrite_covers_iff (by decide) _).mp hcovers
    simp only [Receiver.payloadStride, rxPayloadSize] at hbelow hsize hlow hhigh ⊢
    exact ⟨p, hp, by omega, by omega⟩
  · obtain ⟨p, hp, hindex⟩ := hshows.indices hcomplete i hi
    refine ⟨p, hp, Or.inl hindex, ?_⟩
    rw [hindex]
    omega

/-- A complete frame has no hole exactly if every slot is filled. -/
theorem noHoles_iff_slotsFilled (maxFrameSize : ℕ) (calls : List TimedCall)
    (hpush : ∀ c ∈ calls, ∀ pkt drops, c.call = .pushPacket pkt drops → Receivable pkt)
    (x : List Arrival × FrameResult)
    (hx : x ∈ reportedJournals maxFrameSize Receiver.payloadStride calls)
    (hcomplete : x.2.complete = true) :
    NoHoles maxFrameSize Receiver.payloadStride x ↔
      SlotsFilled maxFrameSize Receiver.payloadStride x := by
  have hshows := showsAccepted_of_reported (by decide) hx
  refine ⟨slotsFilled_of_noHoles hshows (fun p hp => ?_) hcomplete, noHoles_of_slotsFilled hshows⟩
  obtain ⟨a, ha, rfl⟩ := List.mem_map.mp (journalAccepted_subset _ _ x.1 hp)
  exact (hpush _ (pushed_of_reported hx ha) _ _ rfl).2

theorem slotsFilled_of_holdsFrame {frameId : UInt32} {frame : List UInt8} {a : Arrival}
    {as : List Arrival} {e : FrameEntry}
    (he : entryOf maxFrameSize Receiver.payloadStride (a :: as) = some e)
    (hopen : a.pkt.hdr.packetCount = UdpSender.packetCount frame)
    (h : HoldsFrame maxFrameSize frameId frame ((a :: as).map Arrival.pkt)) (hne : frame ≠ [])
    (hcount : UdpSender.Countable frame) (state : FrameState) (drops : ℕ) :
    SlotsFilled maxFrameSize Receiver.payloadStride (a :: as, e.result state drops) := by
  have href := entryOf_reflects he
  rw [hopen] at href
  have hsize : (e.result state drops).frameSize = frame.length := h.frameSize_eq hne hcount href
  intro i hi
  have hindex : i < (UdpSender.packetCount frame).toNat := href.expected ▸ hi
  have hheld := h _ (index_lt hindex)
  refine ⟨UdpSender.packet frameId frame (UInt16.ofNat i), mem_journalAccepted_iff.mpr ?_,
    Or.inl (index_toNat hindex), ?_⟩
  · rw [hopen]
    exact hheld
  · have hnat : (UdpSender.packet frameId frame (UInt16.ofNat i)).hdr.packetId.toNat = i :=
      index_toNat hindex
    have hpayload := UdpSender.payloadSize_toNat frameId frame (UInt16.ofNat i)
    rw [UdpSender.packetSize, index_toNat hindex] at hpayload
    rw [hsize, hnat, UdpSender.packet, hpayload]
    simp only [Receiver.payloadStride, maxUdpPayload]
    omega

theorem reported_of_fullyReceived {k : UInt32} {e : FrameEntry}
    (he : entryOf maxFrameSize payloadStride (journal maxFrameSize payloadStride k calls) = some e)
    (hfull : e.fullyReceived = true) (now : ℤ) (drops : ℕ) :
    (journal maxFrameSize payloadStride k calls, e.result .complete drops) ∈
      reportedJournals maxFrameSize payloadStride (calls ++ [⟨now, .pollTimers drops⟩]) := by
  have hfind := he
  rw [← FrameReassemblerManager.find?_eq_entryOf] at hfind
  rw [← FrameReassemblerManager.currentFrameId_of_find? hfind, reportedJournals_concat]
  refine List.mem_append_right _ (List.mem_map.mpr ⟨(e, .complete), ?_, rfl⟩)
  refine List.mem_filterMap.mpr ⟨(k, e), (OrderedMap.mem_entries_iff _ k e).mpr hfind, ?_⟩
  simp [FrameEntry.timerVerdict, hfull]

theorem exists_reported {α : Type} {f : FrameEntry → α} {v : α} {k : UInt32}
    (h : (entryOf maxFrameSize payloadStride (journal maxFrameSize payloadStride k calls)).map
      (fun e => (e.fullyReceived, f e)) = some (true, v)) (now : ℤ) (drops : ℕ) :
    ∃ e, e.fullyReceived = true ∧ f e = v ∧
      (journal maxFrameSize payloadStride k calls, e.result .complete drops) ∈
        reportedJournals maxFrameSize payloadStride (calls ++ [⟨now, .pollTimers drops⟩]) := by
  obtain ⟨e, he, hflags⟩ := Option.map_eq_some_iff.mp h
  obtain ⟨hfull, hvalue⟩ := Prod.mk_inj.mp hflags
  exact ⟨e, hfull, hvalue, reported_of_fullyReceived he hfull now drops⟩

def oneBytePacket (packetId packetCount : UInt16) : RxPacket where
  hdr := ⟨1, packetId, packetCount, 1⟩
  payload := fun i => [7].getD i 0

theorem receivable_oneBytePacket (packetId packetCount : UInt16) :
    Receivable (oneBytePacket packetId packetCount) :=
  receivable_of_bytes _ [7] (by simp) rfl (by decide)

def oneBytePushes (packetCount : UInt16) (ids : List UInt16) : List TimedCall :=
  ids.map (fun pid => ⟨0, .pushPacket (oneBytePacket pid packetCount) 0⟩)

theorem receivable_oneBytePushes (packetCount : UInt16) (ids : List UInt16) (drops : ℕ) :
    ∀ c ∈ oneBytePushes packetCount ids ++ [⟨0, .pollTimers drops⟩], ∀ pkt drops,
      c.call = .pushPacket pkt drops → Receivable pkt := by
  intro c hc pkt drops' hcall
  rcases List.mem_append.mp hc with hc | hc
  · obtain ⟨pid, -, rfl⟩ := List.mem_map.mp hc
    obtain ⟨rfl, -⟩ := ManagerCall.pushPacket.inj hcall
    exact receivable_oneBytePacket pid packetCount
  · rw [List.mem_singleton.mp hc] at hcall
    cases hcall

/-- The second packet of a frame arrives, then the first, then the second again. -/
def crossedJournal : List Arrival :=
  [⟨UdpSender.packet 1 twoPacketFrame 1, 0, 0⟩,
    ⟨UdpSender.packet 1 twoPacketFrame 0, 0, 1000000⟩,
    ⟨UdpSender.packet 1 twoPacketFrame 1, 0, 2000000⟩]

theorem mem_crossedJournal {a : Arrival} (ha : a ∈ crossedJournal) :
    ∃ pid < 2, a.pkt = UdpSender.packet 1 twoPacketFrame pid := by
  simp only [crossedJournal, List.mem_cons, List.not_mem_nil, or_false] at ha
  rcases ha with rfl | rfl | rfl
  · exact ⟨1, by decide, rfl⟩
  · exact ⟨0, by decide, rfl⟩
  · exact ⟨1, by decide, rfl⟩

theorem slotsFilled_crossedJournal {e : FrameEntry}
    (he : entryOf Receiver.maxFrameSize Receiver.payloadStride crossedJournal = some e)
    (hfull : e.fullyReceived = true) :
    SlotsFilled Receiver.maxFrameSize Receiver.payloadStride
      (crossedJournal, e.result .complete 0) := by
  have hsent : ∀ i p, storedPacket Receiver.maxFrameSize maxUdpPayload
      (UdpSender.packetCount twoPacketFrame) (crossedJournal.map Arrival.pkt) i = some p →
        p ∈ receivedPackets (UdpSender.frameDatagrams 1 twoPacketFrame) := by
    intro i p hp
    obtain ⟨a, ha, rfl⟩ := List.mem_map.mp (storedPacket_some hp).2.1
    obtain ⟨pid, hpid, heq⟩ := mem_crossedJournal ha
    rw [heq]
    exact UdpSender.packet_mem_two length_twoPacketFrame hpid
  have hholds := (fullyReceived_iff_holdsFrame he rfl hsent).mp hfull
  exact slotsFilled_of_holdsFrame he rfl hholds twoPacketFrame_ne_nil
    (UdpSender.countable_two length_twoPacketFrame) _ _

/-- A complete frame of two packets has filled slots, and so no hole. -/
theorem noHoles_iff_slotsFilled_crossedJournal :
    ∃ x ∈ reportedJournals Receiver.maxFrameSize Receiver.payloadStride
        (crossedJournal.map Arrival.call ++ [⟨3000000, .pollTimers 0⟩]),
      x.2.complete = true ∧ NoHoles Receiver.maxFrameSize Receiver.payloadStride x := by
  have hflags : (entryOf Receiver.maxFrameSize Receiver.payloadStride crossedJournal).map
      FrameEntry.fullyReceived = some true := by
    decide +kernel
  obtain ⟨e, he, hfull⟩ := Option.map_eq_some_iff.mp hflags
  have hjournal : journal Receiver.maxFrameSize Receiver.payloadStride 1
      (crossedJournal.map Arrival.call) = crossedJournal := rfl
  have hx := reported_of_fullyReceived (hjournal ▸ he) hfull 3000000 0
  rw [hjournal] at hx
  have hpush : ∀ c ∈ crossedJournal.map Arrival.call ++ [⟨3000000, .pollTimers 0⟩],
      ∀ pkt drops, c.call = .pushPacket pkt drops → Receivable pkt := by
    intro c hc pkt drops hcall
    rcases List.mem_append.mp hc with hc | hc
    · obtain ⟨a, ha, rfl⟩ := List.mem_map.mp hc
      obtain ⟨pid, hpid, heq⟩ := mem_crossedJournal ha
      obtain ⟨rfl, -⟩ := ManagerCall.pushPacket.inj hcall
      rw [heq]
      exact UdpSender.receivable_packet
        (by rwa [UdpSender.packetCount_two length_twoPacketFrame])
    · rw [List.mem_singleton.mp hc] at hcall
      cases hcall
  exact ⟨_, hx, hfull, (noHoles_iff_slotsFilled Receiver.maxFrameSize _ hpush _ hx hfull).mpr
    (slotsFilled_crossedJournal he hfull)⟩

/-- The second packet lies behind a slot of which only the first byte was sent. -/
theorem not_noHoles :
    ¬ ∀ calls : List TimedCall,
      (∀ c ∈ calls, ∀ pkt drops, c.call = .pushPacket pkt drops → Receivable pkt) →
      ∀ x ∈ reportedJournals Receiver.maxFrameSize Receiver.payloadStride calls,
        x.2.complete = true → NoHoles Receiver.maxFrameSize Receiver.payloadStride x := by
  intro h
  have hflags : (entryOf Receiver.maxFrameSize Receiver.payloadStride
      (journal Receiver.maxFrameSize Receiver.payloadStride 1 (oneBytePushes 2 [0, 1]))).map
        (fun e => (e.fullyReceived, e.reassembler.frameSize)) = some (true, 1401) := by
    decide
  obtain ⟨e, hfull, hsize, hx⟩ := exists_reported hflags 0 0
  obtain ⟨p, hp, hcovers⟩ := h _ (receivable_oneBytePushes 2 [0, 1] 0) _ hx hfull 1
    (by simp [FrameEntry.result, hsize])
  have hmem := journalAccepted_subset _ _ _ hp
  have hpackets : (journal Receiver.maxFrameSize Receiver.payloadStride 1
      (oneBytePushes 2 [0, 1])).map Arrival.pkt = [oneBytePacket 0 2, oneBytePacket 1 2] := rfl
  rw [hpackets] at hmem
  rw [RxPacket.slotWrite_covers_iff (by decide)] at hcovers
  simp only [List.mem_cons, List.not_mem_nil, or_false] at hmem
  rcases hmem with rfl | rfl
  · exact absurd hcovers (by decide)
  · exact absurd hcovers (by decide)

end HvFrame
