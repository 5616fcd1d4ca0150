import HvFrame.RepeatedReports

/-!
# Frames of successive sender processes

Every process numbers its only frame 1, so the packets of two processes can meet in one
entry. A complete result is a sent frame when the packet that opened the entry and the
packets it holds are those of one `sendFrame` call, and need not be otherwise.
-/

namespace HvFrame

def processDatagrams (run : List UInt8 × List SendOutcome) : List (List UInt8) :=
  (UdpSender.new.sendFrame run.1 run.2).2

/-- All packets come from sender processes; any of their datagrams may be lost, repeated,
delayed and reordered, and polls come at any time. -/
structure ProcessRuns (runs : List (List UInt8 × List SendOutcome)) (calls : List TimedCall) :
    Prop where
  kinds : ∀ c ∈ calls, c.IsPush ∨ c.IsPoll
  clock : calls.Pairwise (fun a b => a.now ≤ b.now)
  sent : ∀ c ∈ calls, ∀ pkt drops, c.call = .pushPacket pkt drops →
    ∃ run ∈ runs, pkt ∈ receivedPackets (processDatagrams run)

/-- The packet opened the entry of the journal or is held by one of its indices. -/
def Contributes (maxFrameSize payloadStride : ℕ) (j : List Arrival) (pkt : RxPacket) : Prop :=
  ∃ a ∈ j.head?, pkt = a.pkt ∨ ∃ i, storedPacket maxFrameSize payloadStride
    a.pkt.hdr.packetCount (j.map Arrival.pkt) i = some pkt

variable {maxFrameSize : ℕ} {runs : List (List UInt8 × List SendOutcome)}
variable {run : List UInt8 × List SendOutcome} {calls : List TimedCall}

theorem payloadStride_eq : Receiver.payloadStride = maxUdpPayload := rfl

theorem processDatagrams_subset {pkt : RxPacket}
    (h : pkt ∈ receivedPackets (processDatagrams run)) :
    pkt ∈ receivedPackets (UdpSender.frameDatagrams 1 run.1) := by
  have hid : UdpSender.new.frameId + 1 = 1 := by decide
  obtain ⟨d, hd, hpkt⟩ := List.mem_filterMap.mp h
  have hmem := UdpSender.mem_sendFrame hd
  rw [hid] at hmem
  exact List.mem_filterMap.mpr ⟨d, hmem, hpkt⟩

theorem ProcessRuns.payloadSize_le (h : ProcessRuns runs calls) {k : UInt32} {a : Arrival}
    (ha : a ∈ arrivals k calls) : a.pkt.hdr.payloadSize.toNat ≤ maxUdpPayload := by
  obtain ⟨run, -, hpkt⟩ := h.sent _ (mem_arrivals_iff.mp ha).1 _ _ rfl
  obtain ⟨pid, -, heq⟩ := mem_receivedPackets_frameDatagrams.mp (processDatagrams_subset hpkt)
  rw [heq]
  exact (UdpSender.payloadSize_toNat _ _ _).trans_le (UdpSender.packetSize_le _ _)

theorem frame_ne_nil {pkt : RxPacket} {frame : List UInt8}
    (h : pkt ∈ receivedPackets (UdpSender.frameDatagrams 1 frame)) : frame ≠ [] := by
  obtain ⟨pid, hpid, -⟩ := mem_receivedPackets_frameDatagrams.mp h
  have hoffset := UdpSender.offset_lt hpid
  rintro rfl
  simp at hoffset

/-- A complete result to which only one `sendFrame` call contributed, of a frame whose packets
can be counted, is the whole of that call's frame. -/
theorem complete_result_of_one_sendFrame (h : ProcessRuns runs calls)
    {x : List Arrival × FrameResult}
    (hx : x ∈ reportedJournals maxFrameSize Receiver.payloadStride calls)
    (hcomplete : x.2.complete = true) (hcount : UdpSender.Countable run.1)
    (hone : ∀ pkt, Contributes maxFrameSize Receiver.payloadStride x.1 pkt →
      pkt ∈ receivedPackets (processDatagrams run)) :
    x.2.frameData.take x.2.frameSize = run.1 := by
  rw [payloadStride_eq] at hx hone
  obtain ⟨p, hp, d, hd, rfl⟩ := mem_reportedJournals_iff.mp hx
  obtain ⟨post, hsplit⟩ := mem_positions_iff.mp hp
  have he := journal_of_callReports hd
  set j := journal maxFrameSize maxUdpPayload d.1.reassembler.currentFrameId p.1 with hj
  have hslot : ∀ b ∈ j, b.pkt.hdr.payloadSize.toNat ≤ maxUdpPayload := by
    intro b hb
    refine h.payloadSize_le (k := d.1.reassembler.currentFrameId) ?_
    rw [hsplit, arrivals_append]
    exact List.mem_append_left _ (mem_journal hb)
  clear_value j
  cases j with
  | nil => simp at he
  | cons a as =>
    have hfirst := processDatagrams_subset (hone a.pkt ⟨a, rfl, Or.inl rfl⟩)
    have hopen : a.pkt.hdr.packetCount = UdpSender.packetCount run.1 := by
      obtain ⟨pid, -, heq⟩ := mem_receivedPackets_frameDatagrams.mp hfirst
      rw [heq]
      rfl
    have hsent : ∀ i pkt, storedPacket maxFrameSize maxUdpPayload (UdpSender.packetCount run.1)
        ((a :: as).map Arrival.pkt) i = some pkt →
          pkt ∈ receivedPackets (UdpSender.frameDatagrams 1 run.1) := by
      intro i pkt hpkt
      rw [← hopen] at hpkt
      exact processDatagrams_subset (hone pkt ⟨a, rfl, Or.inr ⟨i, hpkt⟩⟩)
    have hholds := (fullyReceived_iff_holdsFrame he hopen hsent).mp hcomplete
    obtain ⟨hsize, hdata⟩ := hholds.frameData_eq he hopen (frame_ne_nil hfirst) hcount hslot
    simp only [FrameEntry.result, hsize, hdata]

/-- Two packets long, all ones; `frameB` is all twos. -/
def frameA : List UInt8 := List.replicate 1401 1

def frameB : List UInt8 := List.replicate 1401 2

theorem length_frameA : frameA.length = maxUdpPayload + 1 := List.length_replicate

theorem length_frameB : frameB.length = maxUdpPayload + 1 := List.length_replicate

theorem packetCount_frameA : UdpSender.packetCount frameA = 2 :=
  UdpSender.packetCount_two length_frameA

theorem packetCount_frameB : UdpSender.packetCount frameB = 2 :=
  UdpSender.packetCount_two length_frameB

def twoProcesses : List (List UInt8 × List SendOutcome) :=
  [(frameA, [.sent, .retry, .sent]), (frameB, [.sent, .retry, .sent])]

theorem mem_processDatagrams_two {frame : List UInt8} {pid : UInt16}
    (h : frame.length = maxUdpPayload + 1) (hpid : pid < 2) :
    UdpSender.packet 1 frame pid ∈
      receivedPackets (processDatagrams (frame, [.sent, .retry, .sent])) := by
  rw [processDatagrams, UdpSender.sendFrame_completes _ (UdpSender.completes_two h)]
  exact UdpSender.packet_mem_two h hpid

theorem Contributes.exists_mem {payloadStride : ℕ} {j : List Arrival} {pkt : RxPacket}
    (h : Contributes maxFrameSize payloadStride j pkt) : ∃ a ∈ j, a.pkt = pkt := by
  obtain ⟨a, ha, rfl | ⟨i, hstored⟩⟩ := h
  · exact ⟨a, List.mem_of_mem_head? ha, rfl⟩
  · exact List.mem_map.mp (storedPacket_some hstored).2.1

/-- The first frame's second packet, its first and its second again, and after the poll that
reports it the second frame. -/
def successiveRun : List TimedCall :=
  [⟨0, .pushPacket (UdpSender.packet 1 frameA 1) 0⟩,
    ⟨1000000, .pushPacket (UdpSender.packet 1 frameA 0) 0⟩,
    ⟨2000000, .pushPacket (UdpSender.packet 1 frameA 1) 0⟩, ⟨3000000, .pollTimers 0⟩,
    ⟨4000000, .pushPacket (UdpSender.packet 1 frameB 0) 0⟩,
    ⟨5000000, .pushPacket (UdpSender.packet 1 frameB 1) 0⟩, ⟨6000000, .pollTimers 0⟩]

theorem pushed_successiveRun {c : TimedCall} (hc : c ∈ successiveRun) {pkt : RxPacket}
    {drops : ℕ} (hcall : c.call = .pushPacket pkt drops) :
    pkt ∈ receivedPackets (processDatagrams
      (if c.now < 3000000 then frameA else frameB, [.sent, .retry, .sent])) := by
  simp only [successiveRun, List.mem_cons, List.not_mem_nil, or_false] at hc
  rcases hc with rfl | rfl | rfl | rfl | rfl | rfl | rfl <;> cases hcall
  · exact mem_processDatagrams_two length_frameA (by decide)
  · exact mem_processDatagrams_two length_frameA (by decide)
  · exact mem_processDatagrams_two length_frameA (by decide)
  · exact mem_processDatagrams_two length_frameB (by decide)
  · exact mem_processDatagrams_two length_frameB (by decide)

theorem processRuns_successiveRun : ProcessRuns twoProcesses successiveRun := by
  refine ⟨?_, by decide, ?_⟩
  · intro c hc
    simp only [successiveRun, List.mem_cons, List.not_mem_nil, or_false] at hc
    rcases hc with rfl | rfl | rfl | rfl | rfl | rfl | rfl
    · exact Or.inl ⟨_, _, rfl⟩
    · exact Or.inl ⟨_, _, rfl⟩
    · exact Or.inl ⟨_, _, rfl⟩
    · exact Or.inr ⟨_, rfl⟩
    · exact Or.inl ⟨_, _, rfl⟩
    · exact Or.inl ⟨_, _, rfl⟩
    · exact Or.inr ⟨_, rfl⟩
  · intro c hc pkt drops hcall
    have hpkt := pushed_successiveRun hc hcall
    split_ifs at hpkt
    · exact ⟨_, List.mem_cons_self, hpkt⟩
    · exact ⟨_, List.mem_cons_of_mem _ List.mem_cons_self, hpkt⟩

theorem contributes_successiveRun {x : List Arrival × FrameResult}
    (hx : x ∈ reportedJournals maxFrameSize Receiver.payloadStride successiveRun)
    {frame : List UInt8}
    (htimes : ∀ now ∈ x.1.map Arrival.now, (if now < 3000000 then frameA else frameB) = frame)
    {pkt : RxPacket} (hpkt : Contributes maxFrameSize Receiver.payloadStride x.1 pkt) :
    pkt ∈ receivedPackets (processDatagrams (frame, [.sent, .retry, .sent])) := by
  obtain ⟨a, ha, rfl⟩ := hpkt.exists_mem
  rw [← htimes a.now (List.mem_map_of_mem ha)]
  exact pushed_successiveRun (pushed_of_reported hx ha) rfl

/-- Both frames are reported whole. -/
theorem complete_result_of_successiveRun :
    (reportedJournals Receiver.maxFrameSize Receiver.payloadStride successiveRun).map
      (fun x => x.2.frameData.take x.2.frameSize) = [frameA, frameB] := by
  have hflags : (reportedJournals Receiver.maxFrameSize Receiver.payloadStride
      successiveRun).map (fun x => (x.2.complete, x.1.map Arrival.now)) =
        [(true, [0, 1000000, 2000000]), (true, [4000000, 5000000])] := by
    decide +kernel
  obtain ⟨x, xs, hlist, hx, hxs⟩ := List.map_eq_cons_iff.mp hflags
  obtain ⟨y, ys, rfl, hy, hys⟩ := List.map_eq_cons_iff.mp hxs
  obtain rfl := List.map_eq_nil_iff.mp hys
  obtain ⟨hxdone, hxtimes⟩ := Prod.mk.inj hx
  obtain ⟨hydone, hytimes⟩ := Prod.mk.inj hy
  have hmem : ∀ z ∈ [x, y],
      z ∈ reportedJournals Receiver.maxFrameSize Receiver.payloadStride successiveRun := by
    rw [hlist]
    exact fun z hz => hz
  have hcount : ∀ frame : List UInt8, frame.length = maxUdpPayload + 1 →
      UdpSender.Countable (frame, [SendOutcome.sent, .retry, .sent]).1 :=
    fun _ h => UdpSender.countable_two h
  have hfirst := complete_result_of_one_sendFrame processRuns_successiveRun
    (hmem x (by simp)) hxdone (hcount frameA length_frameA)
    (fun _ => contributes_successiveRun (hmem x (by simp)) (by rw [hxtimes]; simp))
  have hsecond := complete_result_of_one_sendFrame processRuns_successiveRun
    (hmem y (by simp)) hydone (hcount frameB length_frameB)
    (fun _ => contributes_successiveRun (hmem y (by simp)) (by rw [hytimes]; simp))
  rw [hlist, List.map_cons, List.map_cons, hfirst, hsecond, List.map_nil]

/-- The first packet of one process, the second packet of the next, and a poll. -/
def mixedRun : List TimedCall :=
  [⟨0, .pushPacket (UdpSender.packet 1 frameA 0) 0⟩,
    ⟨1000000, .pushPacket (UdpSender.packet 1 frameB 1) 0⟩, ⟨1000000, .pollTimers 0⟩]

theorem processRuns_mixedRun : ProcessRuns twoProcesses mixedRun := by
  refine ⟨?_, by decide, ?_⟩
  · intro c hc
    simp only [mixedRun, List.mem_cons, List.not_mem_nil, or_false] at hc
    rcases hc with rfl | rfl | rfl
    · exact Or.inl ⟨_, _, rfl⟩
    · exact Or.inl ⟨_, _, rfl⟩
    · exact Or.inr ⟨_, rfl⟩
  · intro c hc pkt drops hcall
    simp only [mixedRun, List.mem_cons, List.not_mem_nil, or_false] at hc
    rcases hc with rfl | rfl | rfl <;> cases hcall
    · exact ⟨_, List.mem_cons_self, mem_processDatagrams_two length_frameA (by decide)⟩
    · exact ⟨_, List.mem_cons_of_mem _ List.mem_cons_self,
        mem_processDatagrams_two length_frameB (by decide)⟩

def mixedJournal : List Arrival :=
  [⟨UdpSender.packet 1 frameA 0, 0, 0⟩, ⟨UdpSender.packet 1 frameB 1, 0, 1000000⟩]

theorem mixedJournal_stored :
    storedPacket Receiver.maxFrameSize maxUdpPayload 2 (mixedJournal.map Arrival.pkt) 0 =
        some (UdpSender.packet 1 frameA 0) ∧
      storedPacket Receiver.maxFrameSize maxUdpPayload 2 (mixedJournal.map Arrival.pkt) 1 =
        some (UdpSender.packet 1 frameB 1) := by
  have hA : FitsAt Receiver.maxFrameSize maxUdpPayload 0 (UdpSender.packet 1 frameA 0) := by
    refine ⟨rfl, (UdpSender.slotEnd_le (by rw [packetCount_frameA]; decide)).trans ?_⟩
    rw [frameA, List.length_replicate]
    decide
  have hA' : ¬ FitsAt Receiver.maxFrameSize maxUdpPayload 1 (UdpSender.packet 1 frameA 0) :=
    fun h => absurd h.1 (by decide)
  have hB : FitsAt Receiver.maxFrameSize maxUdpPayload 1 (UdpSender.packet 1 frameB 1) := by
    refine ⟨rfl, (UdpSender.slotEnd_le (by rw [packetCount_frameB]; decide)).trans ?_⟩
    rw [frameB, List.length_replicate]
    decide
  simp [storedPacket, mixedJournal, hA, hA', hB]

theorem mixedEntry {e : FrameEntry}
    (he : entryOf Receiver.maxFrameSize maxUdpPayload mixedJournal = some e) :
    e.fullyReceived = true ∧ e.reassembler.frameBuffer[0]? = some 1 ∧
      e.reassembler.frameBuffer[1400]? = some 2 := by
  obtain ⟨hstoredA, hstoredB⟩ := mixedJournal_stored
  have hpos : 0 < maxUdpPayload := by decide
  have hstride : maxUdpPayload ≤ 2 ^ 32 := by decide
  have hslot : ∀ p ∈ mixedJournal.map Arrival.pkt, p.hdr.payloadSize.toNat ≤ maxUdpPayload := by
    intro p hp
    simp only [mixedJournal, List.map_cons, List.map_nil, List.mem_cons, List.not_mem_nil,
      or_false] at hp
    rcases hp with rfl | rfl <;>
      exact (UdpSender.payloadSize_toNat _ _ _).trans_le (UdpSender.packetSize_le _ _)
  have hopen : (UdpSender.packet 1 frameA 0).hdr.packetCount = 2 := packetCount_frameA
  have hbuffer := FrameReassemblerV2.frameBuffer_pushAll hpos hstride Receiver.maxFrameSize 1 2
    (mixedJournal.map Arrival.pkt) hslot
  have hlenA : 0 < frameA.length := by rw [frameA, List.length_replicate]; decide
  have hlenB : 1400 < frameB.length := by rw [frameB, List.length_replicate]; decide
  have hpidA : (0 : UInt16).toNat = 0 / maxUdpPayload := by decide
  have hpidB : (1 : UInt16).toNat = 1400 / maxUdpPayload := by decide
  have hbyteA := (contentByte_sent hlenA hpidA hstoredA).trans (List.getElem_replicate _)
  have hbyteB := (contentByte_sent hlenB hpidB hstoredB).trans (List.getElem_replicate _)
  have hreflects := entryOf_reflects he
  rw [hopen] at hreflects
  refine ⟨?_, ?_, ?_⟩
  · rw [FrameEntry.fullyReceived, decide_eq_true_iff, hreflects.complete_iff]
    intro i hi
    have hcases : i = 0 ∨ i = 1 := by
      have : (2 : UInt16).toNat = 2 := rfl
      omega
    rcases hcases with rfl | rfl
    · exact Option.isSome_of_eq_some hstoredA
    · exact Option.isSome_of_eq_some hstoredB
  · obtain rfl := Option.some.inj he
    have hbyte := hbuffer 0 (by decide)
    rw [hbyteA, ← hopen] at hbyte
    exact hbyte
  · obtain rfl := Option.some.inj he
    have hbyte := hbuffer 1400 (by decide)
    rw [hbyteB, ← hopen] at hbyte
    exact hbyte

theorem getElem?_of_take_eq {data frame : List UInt8} {n i : ℕ} (h : data.take n = frame)
    (hi : i < frame.length) : data[i]? = frame[i]? := by
  subst h
  rw [List.length_take] at hi
  rw [List.getElem?_take_of_lt (by omega)]

/-- The mixed result is complete and equal to neither frame. -/
theorem not_complete_results_unmixed :
    ¬ ∀ runs calls, ProcessRuns runs calls → ∀ r,
      .onFrameDone r ∈ FrameReassemblerManager.machine.outputs
        (FrameReassemblerManager.new Receiver.maxFrameSize Receiver.payloadStride) calls →
      r.complete = true → ∃ run ∈ runs, r.frameData.take r.frameSize = run.1 := by
  intro h
  obtain ⟨e, he⟩ : ∃ e, entryOf Receiver.maxFrameSize maxUdpPayload mixedJournal = some e :=
    ⟨_, rfl⟩
  obtain ⟨hfull, hfirst, hlast⟩ := mixedEntry he
  have hjournal : journal Receiver.maxFrameSize Receiver.payloadStride 1 (mixedRun.take 2) =
      mixedJournal := rfl
  have hreport : e.result .complete 0 ∈
      runReports Receiver.maxFrameSize Receiver.payloadStride 1 mixedRun := by
    have hverdict : e.timerVerdict 1000000 = some .complete := by
      simp [FrameEntry.timerVerdict, hfull]
    have hstep : reportJournal Receiver.maxFrameSize Receiver.payloadStride
        (fun e => e.timerVerdict 1000000) 0 mixedJournal = ([], [e.result .complete 0]) :=
      reportJournal_report he hverdict 0
    rw [show mixedRun = mixedRun.take 2 ++ [⟨1000000, .pollTimers 0⟩] from rfl,
      runReports_concat, hjournal]
    simp only [journalStep, hstep, List.mem_append, List.mem_singleton, or_true]
  obtain ⟨run, hrun, hdata⟩ :=
    h _ _ processRuns_mixedRun _ (mem_reportsFor.mp hreport).1 hfull
  have hget : ∀ b : UInt8, ∀ i < 1401, (List.replicate 1401 b)[i]? = some b :=
    fun b i hi => by rw [List.getElem?_replicate, if_pos hi]
  simp only [twoProcesses, List.mem_cons, List.not_mem_nil, or_false] at hrun
  rcases hrun with rfl | rfl
  · have hbyte := getElem?_of_take_eq hdata (i := 1400)
      (by rw [frameA, List.length_replicate]; decide)
    rw [frameA, hget 1 1400 (by decide)] at hbyte
    exact absurd (hlast.symm.trans hbyte) (by decide)
  · have hbyte := getElem?_of_take_eq hdata (i := 0) (by rw [frameB, List.length_replicate]; decide)
    rw [frameB, hget 2 0 (by decide)] at hbyte
    exact absurd (hfirst.symm.trans hbyte) (by decide)

end HvFrame
