import HvFrame.ReportLabels
import HvFrame.SentFrames
import Mathlib.Data.List.Chain

/-!
# Timely delivery of a frame

A schedule delivers every packet of a frame in time when each comes soon enough after the
previous one and after the first. Order, duplicates, other frames and polls are free. Until
the last missing index has arrived no poll reports the frame; the next poll reports the
sender's frame.
-/

namespace HvFrame

namespace TimedCall

def IsPush (c : TimedCall) : Prop := ∃ pkt drops, c.call = .pushPacket pkt drops

def IsPoll (c : TimedCall) : Prop := ∃ drops, c.call = .pollTimers drops

end TimedCall

/-- Every packet of `ps` has been handed to `pushPacket` at least once. -/
def AllArrived (ps : List RxPacket) (calls : List TimedCall) : Prop :=
  ∀ p ∈ ps, ∃ c ∈ calls, ∃ drops, c.call = .pushPacket p drops

/-- The packets `ps` of frame `frameId` all arrive, in any order and with any duplicates,
before a timeout of their entry. -/
structure TimelyDelivery (frameId : UInt32) (ps : List RxPacket) (calls : List TimedCall) :
    Prop where
  kinds : ∀ c ∈ calls, c.IsPush ∨ c.IsPoll
  clock : calls.Pairwise (fun a b => a.now ≤ b.now)
  own : ∀ a ∈ arrivals frameId calls, a.pkt ∈ ps
  complete : AllArrived ps calls
  idle : (arrivals frameId calls).IsChain (fun a b => b.now - a.now ≤ frameIdleTimeout)
  lifetime : ∀ a ∈ (arrivals frameId calls).head?, ∀ b ∈ arrivals frameId calls,
    b.now - a.now ≤ maxFrameLifetime

/-- No `pollTimers` call came after the last missing packet. -/
def UnpolledSinceComplete (ps : List RxPacket) (calls : List TimedCall) : Prop :=
  ∀ x ∈ positions calls, x.2.IsPoll → ¬ AllArrived ps x.1

/-- The result shows exactly the frame `frame`. -/
structure Delivered (frame : List UInt8) (r : FrameResult) : Prop where
  state : r.state = .complete
  completeFlag : r.complete = true
  corruptedFlag : r.corrupted = false
  frameSize : r.frameSize = frame.length
  frameData : r.frameData.take r.frameSize = frame

variable {maxFrameSize payloadStride : ℕ} {frameId : UInt32} {ps : List RxPacket}
variable {calls pre post : List TimedCall} {c : TimedCall}

theorem TimedCall.IsPoll.arrival_eq (h : c.IsPoll) : c.arrival frameId = none := by
  obtain ⟨drops, hcall⟩ := h
  simp [arrival, hcall]

theorem AllArrived.mono (h : AllArrived ps pre) (post : List TimedCall) :
    AllArrived ps (pre ++ post) := by
  intro p hp
  obtain ⟨c, hc, hpush⟩ := h p hp
  exact ⟨c, List.mem_append_left _ hc, hpush⟩

theorem unpolledSinceComplete_of_not_allArrived (h : ¬ AllArrived ps calls) :
    UnpolledSinceComplete ps calls := by
  intro x hx _ hall
  obtain ⟨post, rfl⟩ := mem_positions_iff.mp hx
  exact h (hall.mono _)

theorem UnpolledSinceComplete.concat (h : UnpolledSinceComplete ps (pre ++ [c])) :
    UnpolledSinceComplete ps pre ∧ (c.IsPoll → ¬ AllArrived ps pre) := by
  rw [UnpolledSinceComplete, positions_concat] at h
  exact ⟨fun x hx => h x (List.mem_append_left _ hx),
    h (pre, c) (List.mem_append_right _ List.mem_cons_self)⟩

theorem TimelyDelivery.own_of_append (h : TimelyDelivery frameId ps (pre ++ post)) :
    ∀ a ∈ arrivals frameId pre, a.pkt ∈ ps := by
  intro a ha
  refine h.own a ?_
  rw [arrivals_append]
  exact List.mem_append_left _ ha

theorem TimelyDelivery.not_timedOut (h : TimelyDelivery frameId ps (pre ++ c :: post))
    (hpoll : c.IsPoll) (hpost : arrivals frameId post ≠ []) {e : FrameEntry}
    (he : entryOf maxFrameSize payloadStride (arrivals frameId pre) = some e) :
    e.timedOut c.now = false := by
  obtain ⟨b, bs, hb⟩ := List.exists_cons_of_ne_nil hpost
  have hsplit : arrivals frameId (pre ++ c :: post) = arrivals frameId pre ++ b :: bs := by
    rw [arrivals_append, ← hb, arrivals, arrivals, List.filterMap_cons_none hpoll.arrival_eq]
    rfl
  have hafter : c.now ≤ b.now := by
    have hmem : b ∈ arrivals frameId post := by rw [hb]; exact List.mem_cons_self
    have hclock := (List.pairwise_append.mp h.clock).2.1
    exact (List.pairwise_cons.mp hclock).1 _ (mem_arrivals_iff.mp hmem).1
  have hidle := h.idle
  have hlife := h.lifetime
  rw [hsplit] at hidle hlife
  cases hj : arrivals frameId pre with
  | nil => simp [hj] at he
  | cons a as =>
    rw [hj] at he hidle hlife
    obtain rfl := Option.some.inj he
    have hlast := (List.isChain_append.mp hidle).2.2 _
      (List.getLast?_eq_some_getLast (List.cons_ne_nil a as)) b rfl
    have hfirst := hlife a rfl b (by simp)
    simp only [FrameEntry.timedOut, Bool.or_eq_false_iff, decide_eq_false_iff_not, not_lt]
    omega

theorem frameId_of_mem_receivedPackets {frame : List UInt8} {p : RxPacket}
    (hp : p ∈ receivedPackets (UdpSender.frameDatagrams frameId frame)) :
    p.hdr.frameId = frameId := by
  obtain ⟨pid, -, rfl⟩ := mem_receivedPackets_frameDatagrams.mp hp
  rfl

section Frame

variable {frame : List UInt8}

theorem holdsFrame_iff_allArrived (hfits : frame.length ≤ maxFrameSize)
    (hown : ∀ a ∈ arrivals frameId pre,
      a.pkt ∈ receivedPackets (UdpSender.frameDatagrams frameId frame)) :
    HoldsFrame maxFrameSize frameId frame ((arrivals frameId pre).map Arrival.pkt) ↔
      AllArrived (receivedPackets (UdpSender.frameDatagrams frameId frame)) pre := by
  constructor
  · intro hholds p hp
    obtain ⟨pid, hpid, rfl⟩ := mem_receivedPackets_frameDatagrams.mp hp
    obtain ⟨a, ha, hpkt⟩ := List.mem_map.mp (storedPacket_some (hholds pid hpid)).2.1
    exact ⟨_, (mem_arrivals_iff.mp ha).1, _, by rw [hpkt]⟩
  · intro hall pid hpid
    have hp : UdpSender.packet frameId frame pid ∈
        receivedPackets (UdpSender.frameDatagrams frameId frame) :=
      mem_receivedPackets_frameDatagrams.mpr ⟨pid, hpid, rfl⟩
    obtain ⟨⟨now, call⟩, hc, drops, hcall⟩ := hall _ hp
    obtain rfl : call = .pushPacket (UdpSender.packet frameId frame pid) drops := hcall
    have harr : ⟨UdpSender.packet frameId frame pid, drops, now⟩ ∈ arrivals frameId pre :=
      mem_arrivals_iff.mpr ⟨hc, rfl⟩
    have hstored : (storedPacket maxFrameSize maxUdpPayload (UdpSender.packetCount frame)
        ((arrivals frameId pre).map Arrival.pkt) pid.toNat).isSome :=
      storedPacket_isSome_iff.mpr ⟨UInt16.lt_iff_toNat_lt.mp hpid, _,
        List.mem_map.mpr ⟨_, harr, rfl⟩, rfl, (UdpSender.slotEnd_le hpid).trans hfits⟩
    obtain ⟨q, hq⟩ := Option.isSome_iff_exists.mp hstored
    obtain ⟨a, ha, rfl⟩ := List.mem_map.mp (storedPacket_some hq).2.1
    rw [hq, stored_sent hq (hown a ha)]

/-- A timely schedule's journal before its first successful poll: the arrivals so far, with
the opening packet and every held packet the sender's. -/
theorem arrivals_cons_sent (maxFrameSize : ℕ) {a : Arrival} {as : List Arrival}
    (hown : ∀ b ∈ a :: as, b.pkt ∈ receivedPackets (UdpSender.frameDatagrams frameId frame)) :
    a.pkt.hdr.packetCount = UdpSender.packetCount frame ∧
      (∀ i p, storedPacket maxFrameSize maxUdpPayload (UdpSender.packetCount frame)
        ((a :: as).map Arrival.pkt) i = some p →
          p ∈ receivedPackets (UdpSender.frameDatagrams frameId frame)) ∧
      ∀ b ∈ a :: as, b.pkt.hdr.payloadSize.toNat ≤ maxUdpPayload := by
  refine ⟨?_, ?_, ?_⟩
  · obtain ⟨pid, -, hpkt⟩ := mem_receivedPackets_frameDatagrams.mp (hown a List.mem_cons_self)
    rw [hpkt]
    rfl
  · intro i p hp
    obtain ⟨b, hb, rfl⟩ := List.mem_map.mp (storedPacket_some hp).2.1
    exact hown b hb
  · intro b hb
    obtain ⟨pid, -, hpkt⟩ := mem_receivedPackets_frameDatagrams.mp (hown b hb)
    rw [hpkt]
    exact (UdpSender.payloadSize_toNat _ _ _).trans_le (UdpSender.packetSize_le _ _)

theorem fullyReceived_iff_allArrived (hfits : frame.length ≤ maxFrameSize)
    (hown : ∀ a ∈ arrivals frameId pre,
      a.pkt ∈ receivedPackets (UdpSender.frameDatagrams frameId frame))
    {e : FrameEntry} (he : entryOf maxFrameSize maxUdpPayload (arrivals frameId pre) = some e) :
    e.fullyReceived = true ↔
      AllArrived (receivedPackets (UdpSender.frameDatagrams frameId frame)) pre := by
  rw [← holdsFrame_iff_allArrived hfits hown]
  cases hj : arrivals frameId pre with
  | nil => simp [hj] at he
  | cons a as =>
    rw [hj] at hown he
    obtain ⟨hopen, hsent, -⟩ := arrivals_cons_sent maxFrameSize hown
    exact fullyReceived_iff_holdsFrame he hopen hsent

/-- While a packet is missing, some packet of the frame is still to come. -/
theorem TimelyDelivery.pending
    (h : TimelyDelivery frameId
      (receivedPackets (UdpSender.frameDatagrams frameId frame)) (pre ++ c :: post))
    (hpoll : c.IsPoll)
    (hmissing : ¬ AllArrived (receivedPackets (UdpSender.frameDatagrams frameId frame)) pre) :
    arrivals frameId post ≠ [] := by
  intro hnil
  apply hmissing
  intro p hp
  obtain ⟨⟨now, call⟩, hmem, drops, hcall⟩ := h.complete p hp
  obtain rfl : call = .pushPacket p drops := hcall
  rcases List.mem_append.mp hmem with hpre | hrest
  · exact ⟨_, hpre, drops, rfl⟩
  · rcases List.mem_cons.mp hrest with rfl | hpost
    · obtain ⟨drops', hcall'⟩ := hpoll
      cases hcall'
    · have harr : ⟨p, drops, now⟩ ∈ arrivals frameId post :=
        mem_arrivals_iff.mpr ⟨hpost, frameId_of_mem_receivedPackets hp⟩
      rw [hnil] at harr
      cases harr

theorem TimelyDelivery.timerVerdict_eq_none (hfits : frame.length ≤ maxFrameSize)
    (h : TimelyDelivery frameId
      (receivedPackets (UdpSender.frameDatagrams frameId frame)) (pre ++ c :: post))
    (hpoll : c.IsPoll)
    (hmissing : ¬ AllArrived (receivedPackets (UdpSender.frameDatagrams frameId frame)) pre)
    {e : FrameEntry} (he : entryOf maxFrameSize maxUdpPayload (arrivals frameId pre) = some e) :
    e.timerVerdict c.now = none := by
  have hfull : e.fullyReceived = false := by
    rw [← Bool.not_eq_true, fullyReceived_iff_allArrived hfits h.own_of_append he]
    exact hmissing
  have htime := h.not_timedOut hpoll (h.pending hpoll hmissing) he
  simp [FrameEntry.timerVerdict, hfull, htime]

/-- Up to the first poll after completion, the journal is the list of arrivals and nothing
has been reported. -/
theorem TimelyDelivery.quiet (hfits : frame.length ≤ maxFrameSize)
    (h : TimelyDelivery frameId
      (receivedPackets (UdpSender.frameDatagrams frameId frame)) (pre ++ post))
    (hunpolled : UnpolledSinceComplete
      (receivedPackets (UdpSender.frameDatagrams frameId frame)) pre) :
    (journalMachine maxFrameSize maxUdpPayload frameId).state [] pre = arrivals frameId pre ∧
      (journalMachine maxFrameSize maxUdpPayload frameId).outputs [] pre = [] := by
  induction pre using List.reverseRecOn generalizing post with
  | nil => exact ⟨rfl, rfl⟩
  | append_singleton pre c ih =>
    rw [List.append_assoc, List.singleton_append] at h
    obtain ⟨hprev, hpoll⟩ := hunpolled.concat
    obtain ⟨hstate, houts⟩ := ih h hprev
    have hstep : journalStep maxFrameSize maxUdpPayload frameId (arrivals frameId pre) c =
        (arrivals frameId (pre ++ [c]), []) := by
      rw [arrivals_append]
      rcases h.kinds c (by simp) with ⟨pkt, drops, hcall⟩ | hc
      · by_cases hid : pkt.hdr.frameId = frameId <;>
          simp [journalStep, arrivals, TimedCall.arrival, hcall, hid]
      · have hnone : arrivals frameId [c] = [] := by simp [arrivals, hc.arrival_eq]
        have hskip := fun drops => reportJournal_skip
          (fun e he => h.timerVerdict_eq_none hfits hc (hpoll hc) he) drops
        obtain ⟨drops, hcall⟩ := hc
        simp only [journalStep, hcall, hskip, hnone, List.append_nil]
    rw [OutputMachine.state_append, OutputMachine.outputs_append, hstate, houts]
    simp [hstep]

theorem TimelyDelivery.delivered (hne : frame ≠ []) (hcount : UdpSender.Countable frame)
    (hfits : frame.length ≤ maxFrameSize)
    (h : TimelyDelivery frameId
      (receivedPackets (UdpSender.frameDatagrams frameId frame)) (pre ++ c :: post))
    (hpoll : c.IsPoll)
    (hall : AllArrived (receivedPackets (UdpSender.frameDatagrams frameId frame)) pre) :
    ∃ r, (journalStep maxFrameSize maxUdpPayload frameId (arrivals frameId pre) c).2 = [r] ∧
      Delivered frame r := by
  have hown := h.own_of_append
  have hholds := (holdsFrame_iff_allArrived hfits hown).mpr hall
  cases hj : arrivals frameId pre with
  | nil =>
    obtain ⟨pid, hpid, -⟩ := UdpSender.exists_last hne hcount
    have hstored := hholds pid hpid
    simp [hj, storedPacket] at hstored
  | cons a as =>
    obtain ⟨e, he⟩ : ∃ e, entryOf maxFrameSize maxUdpPayload (a :: as) = some e := ⟨_, rfl⟩
    have hfull := (fullyReceived_iff_allArrived hfits hown (by rw [hj, he])).mpr hall
    have hwf := entryOf_wellFormed he
    rw [hj] at hown hholds
    obtain ⟨hopen, -, hslot⟩ := arrivals_cons_sent maxFrameSize hown
    obtain ⟨hsize, hdata⟩ := hholds.frameData_eq he hopen hne hcount hslot
    obtain ⟨drops, hcall⟩ := hpoll
    refine ⟨e.result .complete drops, ?_, rfl, hfull, ?_, hsize, ?_⟩
    · have hverdict : e.timerVerdict c.now = some .complete := by
        simp [FrameEntry.timerVerdict, hfull]
      have hreport : reportJournal maxFrameSize maxUdpPayload (fun e => e.timerVerdict c.now)
          drops (a :: as) = ([], [e.result .complete drops]) :=
        reportJournal_report he hverdict drops
      simp only [journalStep, hcall, hreport]
    · simp only [FrameEntry.result, FrameReassemblerV2.hasCorruption, hwf.clean, hwf.hasGap_eq]
      simpa [FrameEntry.fullyReceived] using hfull
    · simp only [FrameEntry.result, hsize, hdata]

/-- What a timely delivery of a frame with a free id makes the manager report. -/
theorem TimelyDelivery.reports (hne : frame ≠ []) (hcount : UdpSender.Countable frame)
    (hfits : frame.length ≤ maxFrameSize)
    (h : TimelyDelivery frameId
      (receivedPackets (UdpSender.frameDatagrams frameId frame)) (pre ++ c :: post))
    (hpoll : c.IsPoll)
    (hall : AllArrived (receivedPackets (UdpSender.frameDatagrams frameId frame)) pre)
    (hunpolled : UnpolledSinceComplete
      (receivedPackets (UdpSender.frameDatagrams frameId frame)) pre)
    {m : FrameReassemblerManager}
    (htracks : FrameReassemblerManager.Tracks maxFrameSize maxUdpPayload frameId m []) :
    ∃ r, reportsFor frameId ((FrameReassemblerManager.machine.state m pre).step c).2 = [r] ∧
      Delivered frame r := by
  obtain ⟨hstate, -⟩ := h.quiet hfits hunpolled
  have hrun := (htracks.run pre).1
  rw [hstate] at hrun
  rw [(hrun.step c).2]
  exact h.delivered hne hcount hfits hpoll hall

end Frame

theorem tracks_of_find?_none {before : List TimedCall}
    (hfree : (FrameReassemblerManager.machine.state
      (FrameReassemblerManager.new maxFrameSize payloadStride) before).frames.find? frameId =
        none) :
    FrameReassemblerManager.Tracks maxFrameSize payloadStride frameId
      (FrameReassemblerManager.machine.state
        (FrameReassemblerManager.new maxFrameSize payloadStride) before) [] := by
  obtain ⟨htracks, -⟩ :=
    (FrameReassemblerManager.tracks_new maxFrameSize payloadStride frameId).run before
  rw [htracks.live, entryOf_eq_none] at hfree
  rwa [hfree] at htracks

def inOrderPushes (ps : List RxPacket) : List TimedCall :=
  ps.map (fun p => ⟨0, .pushPacket p 0⟩)

theorem arrivals_inOrderPushes (hid : ∀ p ∈ ps, p.hdr.frameId = frameId) :
    arrivals frameId (inOrderPushes ps) = ps.map (fun p => ⟨p, 0, 0⟩) := by
  rw [arrivals, inOrderPushes, List.filterMap_map, ← List.filterMap_eq_map]
  refine List.filterMap_congr (fun p hp => ?_)
  simp [TimedCall.arrival, hid p hp]

theorem allArrived_inOrderPushes (ps : List RxPacket) : AllArrived ps (inOrderPushes ps) :=
  fun _ hp => ⟨_, List.mem_map.mpr ⟨_, hp, rfl⟩, 0, rfl⟩

theorem unpolled_inOrderPushes (ps : List RxPacket) :
    UnpolledSinceComplete ps (inOrderPushes ps) := by
  rintro ⟨pre, c⟩ hx ⟨drops, hcall⟩
  obtain ⟨post, hsplit⟩ := mem_positions_iff.mp hx
  have hmem : c ∈ inOrderPushes ps := by simp [hsplit]
  obtain ⟨p, -, rfl⟩ := List.mem_map.mp hmem
  cases hcall

theorem timelyDelivery_inOrder (hid : ∀ p ∈ ps, p.hdr.frameId = frameId) :
    TimelyDelivery frameId ps (inOrderPushes ps ++ [⟨0, .pollTimers 0⟩]) := by
  have hzero : ∀ c ∈ inOrderPushes ps ++ [⟨0, .pollTimers 0⟩], c.now = 0 := by
    intro c hc
    rcases List.mem_append.mp hc with hc | hc
    · obtain ⟨p, -, rfl⟩ := List.mem_map.mp hc
      rfl
    · rw [List.mem_singleton.mp hc]
  have harr : arrivals frameId (inOrderPushes ps ++ [⟨0, .pollTimers 0⟩]) =
      ps.map (fun p => ⟨p, 0, 0⟩) := by
    rw [arrivals_append, arrivals_inOrderPushes hid]
    exact List.append_nil _
  refine ⟨?_, ?_, ?_, (allArrived_inOrderPushes ps).mono _, ?_, ?_⟩
  · intro c hc
    rcases List.mem_append.mp hc with hc | hc
    · obtain ⟨p, -, rfl⟩ := List.mem_map.mp hc
      exact Or.inl ⟨p, 0, rfl⟩
    · rw [List.mem_singleton.mp hc]
      exact Or.inr ⟨0, rfl⟩
  · exact List.pairwise_of_forall_mem_list (fun a ha b hb => by rw [hzero a ha, hzero b hb])
  · intro a ha
    rw [harr] at ha
    obtain ⟨p, hp, rfl⟩ := List.mem_map.mp ha
    exact hp
  · rw [harr, List.isChain_map]
    exact (List.pairwise_of_forall_mem_list (fun _ _ _ _ => by simp [frameIdleTimeout])).isChain
  · rw [harr]
    intro a ha b hb
    obtain ⟨p, -, rfl⟩ := List.mem_map.mp hb
    obtain ⟨q, -, rfl⟩ := List.mem_map.mp (List.mem_of_mem_head? ha)
    simp [maxFrameLifetime]

/-- Whatever the sender's socket retries and whatever the order, the duplicates, the other
frames and the polls: nothing is reported for the frame before its last packet arrives, and
the next poll reports it. -/
theorem frame_round_trip {maxFrameSize : ℕ} {sender : UdpSender} {frame : List UInt8}
    {outcomes : List SendOutcome} {before calls : List TimedCall}
    (hne : frame ≠ []) (hfits : frame.length ≤ maxFrameSize)
    (hmax : maxFrameSize ≤ 65535 * maxUdpPayload)
    (hsent : UdpSender.Completes frame outcomes)
    (hfree : (FrameReassemblerManager.machine.state
      (FrameReassemblerManager.new maxFrameSize maxUdpPayload) before).frames.find?
        (sender.sendFrame frame outcomes).1.frameId = none)
    (htimely : TimelyDelivery (sender.sendFrame frame outcomes).1.frameId
      (receivedPackets (sender.sendFrame frame outcomes).2) calls) :
    let frameId := (sender.sendFrame frame outcomes).1.frameId
    let ps := receivedPackets (sender.sendFrame frame outcomes).2
    let m := FrameReassemblerManager.machine.state
      (FrameReassemblerManager.new maxFrameSize maxUdpPayload) before
    (∀ pre post, calls = pre ++ post → ¬ AllArrived ps pre →
      reportsFor frameId (FrameReassemblerManager.machine.outputs m pre) = []) ∧
    ∀ pre poll post, calls = pre ++ poll :: post → poll.IsPoll → AllArrived ps pre →
      UnpolledSinceComplete ps pre →
        reportsFor frameId (FrameReassemblerManager.machine.outputs m pre) = [] ∧
        ∃ r, reportsFor frameId
            ((FrameReassemblerManager.machine.state m pre).step poll).2 = [r] ∧
          Delivered frame r := by
  intro frameId ps m
  have hps : ps = receivedPackets (UdpSender.frameDatagrams frameId frame) := by
    simp only [ps, frameId, UdpSender.sendFrame_completes sender hsent]
    rfl
  have hcount : UdpSender.Countable frame := hfits.trans hmax
  have htracks := tracks_of_find?_none hfree
  have htimely' : TimelyDelivery frameId ps calls := htimely
  rw [hps] at htimely' ⊢
  refine ⟨?_, ?_⟩
  · rintro pre post rfl hmissing
    rw [(htracks.run pre).2]
    exact (htimely'.quiet hfits (unpolledSinceComplete_of_not_allArrived hmissing)).2
  · rintro pre poll post rfl hpoll hall hunpolled
    refine ⟨?_, htimely'.reports hne hcount hfits hpoll hall hunpolled htracks⟩
    rw [(htracks.run pre).2]
    exact (htimely'.quiet hfits hunpolled).2

/-- The second packet, another frame, a poll, and then the first packet twice. -/
def crossedDelivery : List TimedCall :=
  [⟨0, .pushPacket (UdpSender.packet 1 twoPacketFrame 1) 0⟩,
    ⟨1000000, .pushPacket (UdpSender.packet 2 [9] 0) 0⟩, ⟨2000000, .pollTimers 0⟩,
    ⟨3000000, .pushPacket (UdpSender.packet 1 twoPacketFrame 0) 0⟩,
    ⟨4000000, .pushPacket (UdpSender.packet 1 twoPacketFrame 0) 0⟩]

theorem allArrived_crossedDelivery :
    AllArrived (receivedPackets (UdpSender.frameDatagrams 1 twoPacketFrame)) crossedDelivery := by
  intro p hp
  rcases UdpSender.eq_of_mem_two length_twoPacketFrame hp with rfl | rfl
  · exact ⟨_, List.mem_of_getElem? (i := 3) rfl, 0, rfl⟩
  · exact ⟨_, List.mem_of_getElem? (i := 0) rfl, 0, rfl⟩

theorem not_allArrived_crossedDelivery :
    ¬ AllArrived (receivedPackets (UdpSender.frameDatagrams 1 twoPacketFrame))
      (crossedDelivery.take 3) := by
  intro h
  obtain ⟨c, hc, drops, hcall⟩ :=
    h _ (UdpSender.packet_mem_two length_twoPacketFrame (by decide : (0 : UInt16) < 2))
  simp only [crossedDelivery, List.take_succ_cons, List.take_zero, List.mem_cons,
    List.not_mem_nil, or_false] at hc
  rcases hc with rfl | rfl | rfl
  · exact absurd (congrArg (fun p => p.hdr.packetId) (ManagerCall.pushPacket.inj hcall).1)
      (by decide)
  · exact absurd (congrArg (fun p => p.hdr.frameId) (ManagerCall.pushPacket.inj hcall).1)
      (by decide)
  · cases hcall

theorem arrivals_crossedDelivery :
    arrivals 1 (crossedDelivery ++ [⟨5000000, .pollTimers 0⟩]) =
      [⟨UdpSender.packet 1 twoPacketFrame 1, 0, 0⟩,
        ⟨UdpSender.packet 1 twoPacketFrame 0, 0, 3000000⟩,
        ⟨UdpSender.packet 1 twoPacketFrame 0, 0, 4000000⟩] := rfl

theorem timelyDelivery_crossedDelivery :
    TimelyDelivery 1 (receivedPackets (UdpSender.frameDatagrams 1 twoPacketFrame))
      (crossedDelivery ++ [⟨5000000, .pollTimers 0⟩]) := by
  have hmem : ∀ pid < 2, UdpSender.packet 1 twoPacketFrame pid ∈
      receivedPackets (UdpSender.frameDatagrams 1 twoPacketFrame) :=
    fun pid hpid => UdpSender.packet_mem_two length_twoPacketFrame hpid
  refine ⟨?_, by decide, ?_, allArrived_crossedDelivery.mono _, ?_, ?_⟩
  · intro c hc
    simp only [crossedDelivery, List.cons_append, List.nil_append, List.mem_cons,
      List.not_mem_nil, or_false] at hc
    rcases hc with rfl | rfl | rfl | rfl | rfl | rfl
    · exact Or.inl ⟨_, _, rfl⟩
    · exact Or.inl ⟨_, _, rfl⟩
    · exact Or.inr ⟨_, rfl⟩
    · exact Or.inl ⟨_, _, rfl⟩
    · exact Or.inl ⟨_, _, rfl⟩
    · exact Or.inr ⟨_, rfl⟩
  · rw [arrivals_crossedDelivery]
    intro a ha
    simp only [List.mem_cons, List.not_mem_nil, or_false] at ha
    rcases ha with rfl | rfl | rfl
    · exact hmem 1 (by decide)
    · exact hmem 0 (by decide)
    · exact hmem 0 (by decide)
  · rw [arrivals_crossedDelivery]
    simp [frameIdleTimeout]
  · rw [arrivals_crossedDelivery]
    simp [maxFrameLifetime]

theorem unpolled_crossedDelivery :
    UnpolledSinceComplete (receivedPackets (UdpSender.frameDatagrams 1 twoPacketFrame))
      crossedDelivery := by
  rintro ⟨pre, c⟩ hx ⟨drops, hcall⟩
  simp only [positions, positionsFrom, crossedDelivery, List.nil_append, List.cons_append,
    List.mem_cons, List.not_mem_nil, or_false, Prod.mk.injEq] at hx
  rcases hx with ⟨rfl, rfl⟩ | ⟨rfl, rfl⟩ | ⟨rfl, rfl⟩ | ⟨rfl, rfl⟩ | ⟨rfl, rfl⟩
  · cases hcall
  · cases hcall
  · exact fun hall => not_allArrived_crossedDelivery (hall.mono [⟨2000000, .pollTimers 0⟩])
  · cases hcall
  · cases hcall

/-- A frame of two packets, the second of which comes first and the first twice. -/
theorem frame_round_trip_crossedDelivery :
    let m := FrameReassemblerManager.new Receiver.maxFrameSize maxUdpPayload
    reportsFor 1 (FrameReassemblerManager.machine.outputs m (crossedDelivery.take 3)) = [] ∧
    ∃ r, reportsFor 1 ((FrameReassemblerManager.machine.state m crossedDelivery).step
        ⟨5000000, .pollTimers 0⟩).2 = [r] ∧ Delivered twoPacketFrame r := by
  intro m
  have hsent := UdpSender.completes_two length_twoPacketFrame
  have hps : receivedPackets (UdpSender.new.sendFrame twoPacketFrame [.sent, .retry, .sent]).2 =
      receivedPackets (UdpSender.frameDatagrams 1 twoPacketFrame) :=
    congrArg receivedPackets (UdpSender.new.sendFrame_completes hsent)
  have hfree : (FrameReassemblerManager.machine.state m []).frames.find?
      (UdpSender.new.sendFrame twoPacketFrame [.sent, .retry, .sent]).1.frameId = none := rfl
  have htrip := frame_round_trip twoPacketFrame_ne_nil twoPacketFrame_fits (by decide) hsent hfree
    (by rw [hps]; exact timelyDelivery_crossedDelivery)
  rw [hps] at htrip
  refine ⟨htrip.1 (crossedDelivery.take 3) _ rfl not_allArrived_crossedDelivery, ?_⟩
  exact (htrip.2 crossedDelivery _ [] rfl ⟨0, rfl⟩ allArrived_crossedDelivery
    unpolled_crossedDelivery).2

end HvFrame
