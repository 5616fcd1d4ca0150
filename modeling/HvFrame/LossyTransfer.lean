import HvFrame.FrameTransfer
import HvFrame.LossyFrames

/-!
# A frame with losses at the receiver

Some packets of a frame never reach the manager. In every interleaving of the receiver's threads
the frame is reported once it has been silent for 30 ms, once, and the report shows exactly the
packets that did: as a COMPLETE frame whose flags say that it is not.
-/

namespace HvFrame

open UdpSender

/-- The first `frameSize` bytes of the buffer show exactly the packets `ps` of the frame. -/
structure ShowsBytes (maxFrameSize : ℕ) (frame : List UInt8) (ps : List RxPacket)
    (buffer : List UInt8) (frameSize : ℕ) : Prop where
  size : (frameSize = 0 ∧ ∀ pid, ¬ ReceivedIndex maxFrameSize frame ps pid) ∨
    ∃ pid, ReceivedIndex maxFrameSize frame ps pid ∧
      (∀ pid', ReceivedIndex maxFrameSize frame ps pid' → pid' ≤ pid) ∧
      frameSize = sliceEnd frame pid
  bytes : ∀ pos < frameSize, buffer[pos]? =
    if ReceivedIndex maxFrameSize frame ps (UInt16.ofNat (pos / maxUdpPayload)) then frame[pos]?
    else some 0

structure ShowsArrived (maxFrameSize : ℕ) (frame : List UInt8) (ps : List RxPacket)
    (r : FrameResult) : Prop where
  state : r.state = .complete
  completeFlag : r.complete = true ↔
    ∀ pid < packetCount frame, ReceivedIndex maxFrameSize frame ps pid
  corruptedFlag : r.corrupted = !r.complete
  expected : r.expectedPackets = packetCount frame
  received : r.receivedPackets.toNat = (List.range (packetCount frame).toNat).countP (fun i =>
    ReceivedIndex maxFrameSize frame ps (UInt16.ofNat i))
  shown : ShowsBytes maxFrameSize frame ps r.frameData r.frameSize

/-- Some packet of the frame has not been received, or does not fit into the buffer. -/
def Incomplete (maxFrameSize : ℕ) (frame : List UInt8) (ps : List RxPacket) : Prop :=
  ∃ pid < packetCount frame, ¬ ReceivedIndex maxFrameSize frame ps pid

section Journals

variable {maxFrameSize : ℕ} {frameId : UInt32} {frame : List UInt8}
variable {calls pre post : List TimedCall}

theorem ReceivedIndex.mono {ps more : List RxPacket} {pid : UInt16}
    (h : ReceivedIndex maxFrameSize frame ps pid) :
    ReceivedIndex maxFrameSize frame (ps ++ more) pid := by
  obtain ⟨hpid, ⟨p, hp, hindex⟩, hend⟩ := h
  exact ⟨hpid, ⟨p, List.mem_append_left _ hp, hindex⟩, hend⟩

theorem Incomplete.of_append {ps more : List RxPacket}
    (h : Incomplete maxFrameSize frame (ps ++ more)) : Incomplete maxFrameSize frame ps := by
  obtain ⟨pid, hpid, hmissing⟩ := h
  exact ⟨pid, hpid, fun hreceived => hmissing hreceived.mono⟩

theorem showsArrived_of_entryOf {j : List Arrival} {e : FrameEntry}
    (hown : ∀ a ∈ j, a.pkt ∈ receivedPackets (frameDatagrams frameId frame))
    (he : entryOf maxFrameSize maxUdpPayload j = some e) (drops : ℕ) :
    ShowsArrived maxFrameSize frame (j.map Arrival.pkt) (e.result .complete drops) := by
  have hwf := entryOf_wellFormed he
  cases j with
  | nil => cases he
  | cons a as =>
    have hshows := showsReceived_of_entryOf he hown
    refine ⟨rfl, hshows.emitted .complete drops, ?_, ?_, hshows.counter, hshows.size,
      hshows.bytes⟩
    · simp [FrameEntry.result, FrameEntry.fullyReceived, FrameReassemblerV2.hasCorruption,
        hwf.hasGap_eq, hwf.clean]
    · obtain ⟨pid, -, hpkt⟩ := mem_receivedPackets_frameDatagrams.mp (hown a List.mem_cons_self)
      have hcount : a.pkt.hdr.packetCount = packetCount frame := by rw [hpkt]; rfl
      rw [← hcount]
      exact (entryOf_reflects he).expected

theorem Incomplete.completeFlag {ps : List RxPacket} {r : FrameResult}
    (h : Incomplete maxFrameSize frame ps) (hshows : ShowsArrived maxFrameSize frame ps r) :
    r.complete = false := by
  obtain ⟨pid, hpid, hmissing⟩ := h
  rw [← Bool.not_eq_true]
  exact fun hcomplete => hmissing (hshows.completeFlag.mp hcomplete pid hpid)

theorem Incomplete.notFull {j : List Arrival} {e : FrameEntry}
    (h : Incomplete maxFrameSize frame (j.map Arrival.pkt))
    (hown : ∀ a ∈ j, a.pkt ∈ receivedPackets (frameDatagrams frameId frame))
    (he : entryOf maxFrameSize maxUdpPayload j = some e) : e.fullyReceived = false :=
  h.completeFlag (showsArrived_of_entryOf hown he 0)

theorem quiet_of_incomplete {ps : List RxPacket}
    (htimely : TimelyDelivery frameId ps (pre ++ post)) (hpost : arrivals frameId post ≠ [])
    (hloop : ∀ c ∈ pre, c.call.inLoop = true)
    (hown : ∀ a ∈ arrivals frameId pre, a.pkt ∈ receivedPackets (frameDatagrams frameId frame))
    (hlost : Incomplete maxFrameSize frame ((arrivals frameId pre).map Arrival.pkt)) :
    (journalMachine maxFrameSize maxUdpPayload frameId).outputs [] pre = [] := by
  induction pre using List.reverseRecOn generalizing post with
  | nil => rfl
  | append_singleton pre c ih =>
    have hsplit := arrivals_append frameId pre [c]
    rw [hsplit, List.map_append] at hlost
    have hown' : ∀ a ∈ arrivals frameId pre,
        a.pkt ∈ receivedPackets (frameDatagrams frameId frame) := fun a ha =>
      hown a (by rw [hsplit]; exact List.mem_append_left _ ha)
    have hloop' : ∀ c' ∈ pre, c'.call.inLoop = true :=
      fun c' hc' => hloop c' (List.mem_append_left _ hc')
    have hlater : arrivals frameId (c :: post) ≠ [] := by
      rw [← List.singleton_append, arrivals_append]
      exact List.append_ne_nil_of_right_ne_nil _ hpost
    rw [List.append_assoc, List.singleton_append] at htimely
    have hprev := ih htimely hlater hloop' hown' hlost.of_append
    rw [OutputMachine.outputs_append, hprev, ← journal, journal_eq_arrivals hloop' hprev]
    have hc := hloop c (List.mem_append_right _ List.mem_cons_self)
    obtain ⟨now, call⟩ := c
    cases call with
    | pushPacket pkt drops =>
      by_cases hid : pkt.hdr.frameId = frameId <;> simp [journalStep, hid]
    | pollTimers drops =>
      have hskip : ∀ e, entryOf maxFrameSize maxUdpPayload (arrivals frameId pre) = some e →
          e.timerVerdict now = none := by
        intro e he
        have hfull := hlost.of_append.notFull hown' he
        have htime := htimely.not_timedOut ⟨drops, rfl⟩ hpost he
        simp [FrameEntry.timerVerdict, hfull, htime]
      simp [journalStep, reportJournal_skip hskip]
    | _ => cases hc

/-- A frame with losses is reported once, or not yet. -/
theorem reports_of_incomplete
    (hown : ∀ a ∈ arrivals frameId calls, a.pkt ∈ receivedPackets (frameDatagrams frameId frame))
    (hsome : arrivals frameId calls ≠ [])
    (hlost : Incomplete maxFrameSize frame ((arrivals frameId calls).map Arrival.pkt))
    (hinTime : InTime (arrivals frameId calls))
    (hloop : ∀ c ∈ calls, c.call.inLoop = true)
    (hclock : calls.Pairwise (fun a b => a.now ≤ b.now)) :
    (journalMachine maxFrameSize maxUdpPayload frameId).outputs [] calls = [] ∨
      ∃ r, (journalMachine maxFrameSize maxUdpPayload frameId).outputs [] calls = [r] ∧
        ShowsArrived maxFrameSize frame ((arrivals frameId calls).map Arrival.pkt) r := by
  have htimely : TimelyDelivery frameId ((arrivals frameId calls).map Arrival.pkt) calls := by
    refine hinTime.timelyDelivery hloop hclock (fun a ha => List.mem_map_of_mem ha) ?_
    intro p hp
    obtain ⟨a, ha, rfl⟩ := List.mem_map.mp hp
    exact ⟨_, (mem_arrivals_iff.mp ha).1, a.queueDropCount, rfl⟩
  obtain ⟨pre, now, p, drops, post, rfl, hid, hpost⟩ := exists_last_arrival hsome
  have hlast : arrivals frameId (⟨now, .pushPacket p drops⟩ :: post) = [⟨p, drops, now⟩] := by
    have hcons : arrivals frameId (⟨now, .pushPacket p drops⟩ :: post) =
        ⟨p, drops, now⟩ :: arrivals frameId post := by simp [arrivals, TimedCall.arrival, hid]
    rw [hcons, hpost]
  rw [arrivals_append, hlast] at hown hlost ⊢
  rw [List.map_append] at hlost
  have hloop' : ∀ c ∈ pre, c.call.inLoop = true := fun c hc => hloop c (List.mem_append_left _ hc)
  have hquiet := quiet_of_incomplete htimely (by rw [hlast]; exact List.cons_ne_nil _ _) hloop'
    (fun a ha => hown a (List.mem_append_left _ ha)) hlost.of_append
  rw [← List.map_append] at hlost
  obtain ⟨e, he⟩ : ∃ e, entryOf maxFrameSize maxUdpPayload
      (arrivals frameId pre ++ [⟨p, drops, now⟩]) = some e := ⟨_, entryOf_concat _ _⟩
  have hstep : (journalMachine maxFrameSize maxUdpPayload frameId).step (arrivals frameId pre)
      ⟨now, .pushPacket p drops⟩ = (arrivals frameId pre ++ [⟨p, drops, now⟩], []) := by
    simp [journalStep, hid]
  rw [OutputMachine.outputs_append, hquiet, List.nil_append, ← journal,
    journal_eq_arrivals hloop' hquiet, OutputMachine.outputs_cons, hstep, List.nil_append]
  rcases reports_of_no_arrivals he
    (fun c hc => hloop c (List.mem_append_right _ (List.mem_cons_of_mem _ hc))) hpost with
    hnone | ⟨drops', hone⟩
  · exact Or.inl hnone
  · exact Or.inr ⟨_, hone, showsArrived_of_entryOf hown he drops'⟩

end Journals

namespace ReceiverState

variable {clock : ℤ} {moves : List ReceiverMove} {frameId : UInt32} {frame : List UInt8}

theorem acceptedPackets_subset_pushed (es : List ReceiverEvent) :
    acceptedPackets es ⊆ es.filterMap ReceiverEvent.pushedPacket := by
  intro p hp
  obtain ⟨e, he, haccepted⟩ := List.mem_filterMap.mp hp
  cases e with
  | accepted pkt => exact List.mem_filterMap.mpr ⟨_, he, haccepted⟩
  | _ => cases haccepted

theorem received_of_accepted {pkt : RxPacket}
    (h : pkt ∈ acceptedPackets (machine.outputs (init clock) moves)) :
    pkt ∈ (receipts clock moves).filterMap receivedPacket := by
  rw [pushesReceived_run clock moves]
  exact List.mem_append_left _ (acceptedPackets_subset_pushed _ h)

theorem received_of_arrival {a : Arrival} (h : a ∈ arrivals frameId (managerCalls clock moves)) :
    a.pkt ∈ (receipts clock moves).filterMap receivedPacket := by
  refine received_of_accepted ?_
  rw [← (usedInOrder_run clock moves).1.fifo]
  refine List.mem_append_left _ (List.mem_append_left _ ?_)
  exact List.mem_filterMap.mpr ⟨_, (mem_arrivals_iff.mp h).1, rfl⟩

/-- When some packets of a frame are handed over soon enough one after another, and at least one
never is, the frame is reported once it has been silent for 30 ms and the worker has had time for
a poll: once, and with exactly the bytes of the packets that were handed over. -/
theorem lossy_frame_reported {receiving aging waiting polling : List ReceiverMove}
    (hfrom : ∀ p ∈ (receipts clock receiving).filterMap receivedPacket,
      p.hdr.frameId = frameId → p ∈ receivedPackets (frameDatagrams frameId frame))
    (hsome : arrivals frameId (managerCalls clock receiving) ≠ [])
    (hlost : Incomplete Receiver.maxFrameSize frame
      ((arrivals frameId (managerCalls clock receiving)).map Arrival.pkt))
    (hinTime : InTime (arrivals frameId (managerCalls clock receiving)))
    (hsilent : arrivals frameId
        (managerCalls clock (receiving ++ (aging ++ waiting ++ polling))) =
      arrivals frameId (managerCalls clock receiving))
    (hunsignalled : .signal ∉ receiving ++ (aging ++ waiting ++ polling))
    (hage : frameIdleTimeout < (aging.map ReceiverMove.elapsed).sum)
    (hwait : 5 * 1000000 ≤ (waiting.map ReceiverMove.elapsed).sum)
    (hmoves : 11 < polling.countP ReceiverMove.isWorker) :
    ∃ r, (reports (machine.outputs (init clock)
        (receiving ++ (aging ++ waiting ++ polling)))).filter (fun r => r.frameId = frameId) =
          [r] ∧
      ShowsArrived Receiver.maxFrameSize frame
        ((arrivals frameId (managerCalls clock receiving)).map Arrival.pkt) r ∧
      r.complete = false := by
  have hown : ∀ a ∈ arrivals frameId (managerCalls clock receiving),
      a.pkt ∈ receivedPackets (frameDatagrams frameId frame) := fun a ha =>
    hfrom _ (received_of_arrival ha) (mem_arrivals_iff.mp ha).2
  have hloop := (usedInOrder_run clock (receiving ++ (aging ++ waiting ++ polling))).1.loop
    (not_ended_of_unsignalled clock hunsignalled)
  have hreports := reports_of_incomplete (hsilent ▸ hown) (hsilent ▸ hsome) (hsilent ▸ hlost)
    (hsilent ▸ hinTime) hloop (ascending_managerCalls clock _)
  rw [hsilent] at hreports
  rw [filter_reports]
  rcases hreports with hnone | hone
  · exfalso
    have hsplit := machine.callsTo_append managerCall (init clock) receiving
      (aging ++ waiting ++ polling)
    have hquiet := hnone
    rw [managerCalls, hsplit, OutputMachine.outputs_append] at hquiet
    have hloop' : ∀ c ∈ managerCalls clock receiving, c.call.inLoop = true := fun c hc =>
      hloop c (by rw [managerCalls, hsplit]; exact List.mem_append_left _ hc)
    have hlive := find?_of_quiet hloop' (List.append_eq_nil_iff.mp hquiet).1
    obtain ⟨e, he⟩ := Option.ne_none_iff_exists'.mp
      (fun hnone => hsome (entryOf_eq_none.mp (hlive.symm.trans hnone)))
    rw [managerCalls, hsplit, arrivals_append, managerCalls, List.append_right_eq_self] at hsilent
    exact not_settled_of_quiet hunsignalled hnone
      (Reached.settled_of_silent ⟨clock, receiving, rfl⟩ he hage hsilent hwait hmoves)
  · obtain ⟨r, hr, hshows⟩ := hone
    exact ⟨r, hr, hshows, hlost.completeFlag hshows⟩

def secondReceived : List ReceiverMove :=
  receiveMoves (datagram 1 twoPacketFrame 1) ++ [.worker, .worker, .worker, .worker]

theorem packetCount_twoPacketFrame : packetCount twoPacketFrame = 2 :=
  packetCount_two length_twoPacketFrame

theorem receivedPacket_second :
    receivedPacket (datagram 1 twoPacketFrame 1) = some (packet 1 twoPacketFrame 1) := by
  have hlt : (1 : UInt16) < packetCount twoPacketFrame := by
    rw [packetCount_twoPacketFrame]
    decide
  exact (receivedPacket_of_mem (mem_frameDatagrams.mpr ⟨1, hlt, rfl⟩)).trans
    (rxDatagram_datagram hlt)

theorem managerCalls_secondReceived :
    managerCalls 0 secondReceived = [⟨0, .pushPacket (packet 1 twoPacketFrame 1) 0⟩] := by
  have hreceived := (receiveMoves_accepted receivedPacket_second [] 0 (by decide)).1
  rw [managerCalls, secondReceived, machine.callsTo_append, show init 0 = backlogged [] 0 from rfl,
    hreceived]
  rfl

/-- The first packet is lost. -/
theorem lossy_frame_reported_second :
    ∃ r, (reports (machine.outputs (init 0) (secondReceived ++
        ([.advance 30000001] ++ [.advance 5000000] ++ List.replicate 12 .worker)))).filter
          (fun r => r.frameId = 1) = [r] ∧
      ShowsArrived Receiver.maxFrameSize twoPacketFrame
        ((arrivals 1 (managerCalls 0 secondReceived)).map Arrival.pkt) r ∧
      r.complete = false := by
  have hreceived : receipts 0 secondReceived = [datagram 1 twoPacketFrame 1] := by rfl
  have harrived : arrivals 1 (managerCalls 0 secondReceived) =
      [⟨packet 1 twoPacketFrame 1, 0, 0⟩] := by
    rw [managerCalls_secondReceived]
    rfl
  have hsilent : arrivals 1 (managerCalls 0 (secondReceived ++
      ([.advance 30000001] ++ [.advance 5000000] ++ List.replicate 12 .worker))) =
        arrivals 1 (managerCalls 0 secondReceived) := arrivals_of_silent
    (kept_of_few (by rw [hreceived]; decide)) (by constructor <;> decide +kernel)
    (by decide +kernel) 1
  refine lossy_frame_reported ?_ ?_ ?_ (inTime_of_elapsed (by decide) 1) hsilent ?_ (by decide)
    (by decide) (by decide)
  · rw [hreceived, List.filterMap_cons_some receivedPacket_second]
    intro p hp _
    rw [List.mem_singleton.mp hp]
    refine mem_receivedPackets_frameDatagrams.mpr ⟨1, ?_, rfl⟩
    rw [packetCount_twoPacketFrame]
    decide
  · rw [harrived]
    exact List.cons_ne_nil _ _
  · rw [harrived]
    refine ⟨0, ?_, ?_⟩
    · rw [packetCount_twoPacketFrame]
      decide
    · rintro ⟨-, ⟨p, hp, hindex⟩, -⟩
      rw [List.mem_singleton.mp hp] at hindex
      exact absurd hindex (by decide)
  · simp [secondReceived, receiveMoves]

end ReceiverState

end HvFrame
