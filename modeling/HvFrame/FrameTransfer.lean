import HvFrame.FrameDeadlines
import HvFrame.RepeatedReports
import HvFrame.ReceiverAccounts

/-!
# A sender's frames at the receiver

The frames of one sender, each of whose datagrams is received once and soon enough. Whatever
the order of the datagrams and the interleaving of the receiver's threads, every frame is
reported once, with the sender's bytes, and nothing else is reported.
-/

namespace HvFrame

theorem receivedPackets_frameDatagrams (frameId : UInt32) (frame : List UInt8) :
    receivedPackets (UdpSender.frameDatagrams frameId frame) =
      (List.range (UdpSender.packetCount frame).toNat).map
        (fun i => UdpSender.packet frameId frame (UInt16.ofNat i)) := by
  rw [receivedPackets, UdpSender.frameDatagrams, List.filterMap_map, ← List.filterMap_eq_map']
  refine List.filterMap_congr (fun i hi => ?_)
  exact UdpSender.rxDatagram_datagram (index_lt (List.mem_range.mp hi))

theorem nodup_receivedPackets {frameId : UInt32} {frame : List UInt8} :
    (receivedPackets (UdpSender.frameDatagrams frameId frame)).Nodup := by
  rw [receivedPackets_frameDatagrams]
  refine List.Nodup.map_on (fun i hi j hj hij => ?_) List.nodup_range
  have hids : UInt16.ofNat i = UInt16.ofNat j := congrArg (fun p => p.hdr.packetId) hij
  rw [← index_toNat (List.mem_range.mp hi), hids, index_toNat (List.mem_range.mp hj)]

def numbered : UInt32 → List (List UInt8) → List (UInt32 × List UInt8)
  | _, [] => []
  | frameId, frame :: rest => (frameId + 1, frame) :: numbered (frameId + 1) rest

theorem succ_add_ofNat (frameId : UInt32) (i : ℕ) :
    frameId + 1 + UInt32.ofNat (i + 1) = frameId + UInt32.ofNat (i + 1 + 1) := by
  rw [UInt32.ofNat_add (i + 1) 1, add_assoc, add_comm 1]
  rfl

/-- The ids do not repeat before all `2^32` have been used. -/
theorem eq_of_ofNat_succ {i j : ℕ} (hi : i < 2 ^ 32) (hj : j < 2 ^ 32)
    (h : UInt32.ofNat (i + 1) = UInt32.ofNat (j + 1)) : i = j := by
  have hmod := congrArg UInt32.toNat h
  rw [UInt32.toNat_ofNat', UInt32.toNat_ofNat'] at hmod
  omega

theorem numbered_getElem? (frameId : UInt32) (frames : List (List UInt8)) (i : ℕ) :
    (numbered frameId frames)[i]? =
      frames[i]?.map (fun frame => (frameId + UInt32.ofNat (i + 1), frame)) := by
  induction frames generalizing frameId i with
  | nil => simp [numbered]
  | cons frame rest ih =>
    cases i with
    | zero => simp [numbered]
    | succ i => simp only [numbered, List.getElem?_cons_succ, ih, succ_add_ofNat]

theorem map_fst_numbered (frameId : UInt32) (frames : List (List UInt8)) :
    (numbered frameId frames).map Prod.fst =
      (List.range frames.length).map (fun i => frameId + UInt32.ofNat (i + 1)) := by
  refine List.ext_getElem? (fun i => ?_)
  rw [List.getElem?_map, numbered_getElem?, List.getElem?_map, Option.map_map]
  by_cases hi : i < frames.length
  · simp [hi]
  · simp [hi]

theorem numbered_distinct (frameId : UInt32) {frames : List (List UInt8)}
    (h : frames.length ≤ 2 ^ 32) : ((numbered frameId frames).map Prod.fst).Nodup := by
  rw [map_fst_numbered]
  refine List.Nodup.map_on (fun i hi j hj hij => ?_) List.nodup_range
  have hbound := List.mem_range.mp hi
  have hbound' := List.mem_range.mp hj
  exact eq_of_ofNat_succ (by omega) (by omega) (add_left_cancel hij)

theorem sendFrames_completes (s : UdpSender) {frames : List (List UInt8 × List SendOutcome)}
    (h : ∀ f ∈ frames, UdpSender.Completes f.1 f.2) :
    sendFrames s frames = (numbered s.frameId (frames.map Prod.fst)).map
      (fun f => (f.1, UdpSender.frameDatagrams f.1 f.2)) := by
  induction frames generalizing s with
  | nil => rfl
  | cons f frames ih =>
    obtain ⟨frame, outcomes⟩ := f
    have hrest := ih (s.sendFrame frame outcomes).1 (fun f hf => h f (List.mem_cons_of_mem _ hf))
    rw [sendFrames, hrest, s.sendFrame_completes (h _ List.mem_cons_self)]
    rfl

section Journals

variable {maxFrameSize payloadStride : ℕ} {frameId : UInt32} {calls : List TimedCall}

/-- As long as the loop reports nothing for a frame, its journal is the list of its arrivals. -/
theorem journal_eq_arrivals (hloop : ∀ c ∈ calls, c.call.inLoop = true)
    (hquiet : (journalMachine maxFrameSize payloadStride frameId).outputs [] calls = []) :
    journal maxFrameSize payloadStride frameId calls = arrivals frameId calls := by
  induction calls using List.reverseRecOn with
  | nil => rfl
  | append_singleton calls c ih =>
    rw [OutputMachine.outputs_append, List.append_eq_nil_iff] at hquiet
    have hprev := ih (fun c' hc' => hloop c' (List.mem_append_left _ hc')) hquiet.1
    have hnow : (journalStep maxFrameSize payloadStride frameId
        (journal maxFrameSize payloadStride frameId calls) c).2 = [] := by
      simpa [journal] using hquiet.2
    have hc := hloop c (List.mem_append_right _ List.mem_cons_self)
    rw [journal_concat, arrivals_append, ← hprev]
    obtain ⟨now, call⟩ := c
    cases call with
    | pushPacket pkt drops =>
      by_cases hid : pkt.hdr.frameId = frameId <;>
        simp [journalStep, arrivals, TimedCall.arrival, hid]
    | pollTimers drops =>
      have hnone : arrivals frameId [⟨now, .pollTimers drops⟩] = [] := rfl
      rw [hnone, List.append_nil]
      simp only [journalStep, reportJournal] at hnow ⊢
      split at hnow
      · rfl
      · split at hnow
        · rfl
        · cases hnow
    | _ => cases hc

theorem quiet_of_no_arrivals (hloop : ∀ c ∈ calls, c.call.inLoop = true)
    (hnone : arrivals frameId calls = []) :
    (journalMachine maxFrameSize payloadStride frameId).outputs [] calls = [] := by
  induction calls with
  | nil => rfl
  | cons c calls ih =>
    have hc := hloop c List.mem_cons_self
    have harr := List.filterMap_eq_nil_iff.mp hnone
    have hrest := ih (fun c' hc' => hloop c' (List.mem_cons_of_mem _ hc'))
      (List.filterMap_eq_nil_iff.mpr (fun c' hc' => harr c' (List.mem_cons_of_mem _ hc')))
    obtain ⟨now, call⟩ := c
    cases call with
    | pushPacket pkt drops =>
      have hid : pkt.hdr.frameId ≠ frameId := by
        intro hid
        simpa [TimedCall.arrival, hid] using harr _ List.mem_cons_self
      simpa [journalMachine, journalStep, hid] using hrest
    | pollTimers drops => exact hrest
    | _ => cases hc

/-- A frame without further arrivals is reported once or not yet. -/
theorem reports_of_no_arrivals {j : List Arrival} {e : FrameEntry}
    (he : entryOf maxFrameSize payloadStride j = some e)
    (hloop : ∀ c ∈ calls, c.call.inLoop = true) (hnone : arrivals frameId calls = []) :
    (journalMachine maxFrameSize payloadStride frameId).outputs j calls = [] ∨
      ∃ drops, (journalMachine maxFrameSize payloadStride frameId).outputs j calls =
        [e.result .complete drops] := by
  induction calls with
  | nil => exact Or.inl rfl
  | cons c calls ih =>
    have hc := hloop c List.mem_cons_self
    have hloop' : ∀ c' ∈ calls, c'.call.inLoop = true :=
      fun c' hc' => hloop c' (List.mem_cons_of_mem _ hc')
    have harr := List.filterMap_eq_nil_iff.mp hnone
    have hnone' : arrivals frameId calls = [] :=
      List.filterMap_eq_nil_iff.mpr (fun c' hc' => harr c' (List.mem_cons_of_mem _ hc'))
    obtain ⟨now, call⟩ := c
    cases call with
    | pushPacket pkt drops =>
      have hid : pkt.hdr.frameId ≠ frameId := by
        intro hid
        simpa [TimedCall.arrival, hid] using harr _ List.mem_cons_self
      have hstep : (journalMachine maxFrameSize payloadStride frameId).step j
          ⟨now, .pushPacket pkt drops⟩ = (j, []) := by
        simp [journalMachine, journalStep, hid]
      rw [OutputMachine.outputs_cons, hstep]
      exact ih hloop' hnone'
    | pollTimers drops =>
      cases hverdict : e.timerVerdict now with
      | none =>
        have hskip : ∀ e', entryOf maxFrameSize payloadStride j = some e' →
            e'.timerVerdict now = none := by
          intro e' he'
          rw [he] at he'
          rw [← Option.some.inj he', hverdict]
        have hstep : (journalMachine maxFrameSize payloadStride frameId).step j
            ⟨now, .pollTimers drops⟩ = (j, []) := reportJournal_skip hskip drops
        rw [OutputMachine.outputs_cons, hstep]
        exact ih hloop' hnone'
      | some state =>
        obtain rfl := FrameEntry.timerVerdict_complete hverdict
        have hstep : (journalMachine maxFrameSize payloadStride frameId).step j
            ⟨now, .pollTimers drops⟩ = ([], [e.result .complete drops]) :=
          reportJournal_report he hverdict drops
        refine Or.inr ⟨drops, ?_⟩
        rw [OutputMachine.outputs_cons, hstep, quiet_of_no_arrivals hloop' hnone']
        rfl
    | _ => cases hc

theorem delivered_of_allArrived {frame : List UInt8} (hne : frame ≠ [])
    (hcount : UdpSender.Countable frame) (hfits : frame.length ≤ maxFrameSize)
    (hown : ∀ a ∈ arrivals frameId calls,
      a.pkt ∈ receivedPackets (UdpSender.frameDatagrams frameId frame))
    (hall : AllArrived (receivedPackets (UdpSender.frameDatagrams frameId frame)) calls) :
    ∃ e, entryOf maxFrameSize maxUdpPayload (arrivals frameId calls) = some e ∧
      e.fullyReceived = true ∧ ∀ drops, Delivered frame (e.result .complete drops) := by
  have hholds := (holdsFrame_iff_allArrived hfits hown).mpr hall
  cases hj : arrivals frameId calls with
  | nil =>
    obtain ⟨pid, hpid, -⟩ := UdpSender.exists_last hne hcount
    have hstored := hholds pid hpid
    simp [hj, storedPacket] at hstored
  | cons a as =>
    obtain ⟨e, he⟩ : ∃ e, entryOf maxFrameSize maxUdpPayload (a :: as) = some e := ⟨_, rfl⟩
    have hfull := (fullyReceived_iff_allArrived hfits hown (by rw [hj, he])).mpr hall
    have hwf := entryOf_wellFormed he
    rw [hj] at hown hholds
    obtain ⟨hopen, -, hslot⟩ := arrivals_cons_sent maxFrameSize hown
    obtain ⟨hsize, hdata⟩ := hholds.frameData_eq he hopen hne hcount hslot
    refine ⟨e, he, hfull, fun drops => ⟨rfl, hfull, ?_, hsize, ?_⟩⟩
    · simp only [FrameEntry.result, FrameReassemblerV2.hasCorruption, hwf.clean, hwf.hasGap_eq]
      simpa [FrameEntry.fullyReceived] using hfull
    · simp only [FrameEntry.result, hsize, hdata]

theorem exists_last_arrival (harr : arrivals frameId calls ≠ []) :
    ∃ pre now p drops post, calls = pre ++ ⟨now, .pushPacket p drops⟩ :: post ∧
      p.hdr.frameId = frameId ∧ arrivals frameId post = [] := by
  induction calls with
  | nil => exact absurd rfl harr
  | cons c calls ih =>
    by_cases hlater : arrivals frameId calls = []
    · obtain ⟨now, call⟩ := c
      cases call with
      | pushPacket p drops =>
        refine ⟨[], now, p, drops, calls, rfl, ?_, hlater⟩
        by_contra hid
        refine harr (List.filterMap_eq_nil_iff.mpr (fun c' hc' => ?_))
        rcases List.mem_cons.mp hc' with rfl | hc'
        · exact if_neg hid
        · exact List.filterMap_eq_nil_iff.mp hlater c' hc'
      | _ => exact absurd hlater harr
    · obtain ⟨pre, now, p, drops, post, rfl, hid, hpost⟩ := ih hlater
      exact ⟨c :: pre, now, p, drops, post, rfl, hid, hpost⟩

theorem unpolled_of_once {ps : List RxPacket} {now : ℤ} {p : RxPacket} {drops : ℕ}
    {pre post : List TimedCall} (hnodup : ps.Nodup) (hids : ∀ q ∈ ps, q.hdr.frameId = frameId)
    (hid : p.hdr.frameId = frameId)
    (honce : ((arrivals frameId (pre ++ ⟨now, .pushPacket p drops⟩ :: post)).map
      Arrival.pkt).Perm ps) :
    UnpolledSinceComplete ps (pre ++ [⟨now, .pushPacket p drops⟩]) := by
  have hcons : arrivals frameId (⟨now, .pushPacket p drops⟩ :: post) =
      ⟨p, drops, now⟩ :: arrivals frameId post := by
    simp [arrivals, TimedCall.arrival, hid]
  rw [arrivals_append, hcons, List.map_append, List.map_cons] at honce
  have hfresh : p ∉ (arrivals frameId pre).map Arrival.pkt := by
    intro hp
    exact (List.nodup_append.mp (honce.nodup_iff.mpr hnodup)).2.2 p hp p List.mem_cons_self rfl
  have hmem : p ∈ ps := honce.mem_iff.mp (List.mem_append_right _ List.mem_cons_self)
  have hmissing : ¬ AllArrived ps pre := by
    intro hall
    obtain ⟨⟨now', call⟩, hc, drops', hcall⟩ := hall p hmem
    obtain rfl : call = .pushPacket p drops' := hcall
    exact hfresh (List.mem_map.mpr ⟨⟨p, drops', now'⟩, mem_arrivals_iff.mpr ⟨hc, hids p hmem⟩, rfl⟩)
  intro x hx hpoll
  rw [positions_concat] at hx
  rcases List.mem_append.mp hx with hx | hx
  · exact unpolledSinceComplete_of_not_allArrived hmissing x hx hpoll
  · obtain rfl := List.mem_singleton.mp hx
    obtain ⟨drops', hcall⟩ := hpoll
    cases hcall

/-- Each packet comes soon enough after the one before and after the first. -/
structure InTime (as : List Arrival) : Prop where
  idle : as.IsChain (fun a b => b.now - a.now ≤ frameIdleTimeout)
  lifetime : ∀ a ∈ as.head?, ∀ b ∈ as, b.now - a.now ≤ maxFrameLifetime

theorem inTime_of_forall {as : List Arrival}
    (h : ∀ a ∈ as, ∀ b ∈ as, b.now - a.now ≤ frameIdleTimeout) : InTime as where
  idle := List.Pairwise.isChain (List.pairwise_of_forall_mem_list h)
  lifetime := by
    intro a ha b hb
    refine (h a (List.mem_of_mem_head? ha) b hb).trans ?_
    simp [frameIdleTimeout, maxFrameLifetime]

theorem InTime.timelyDelivery {ps : List RxPacket} (h : InTime (arrivals frameId calls))
    (hloop : ∀ c ∈ calls, c.call.inLoop = true)
    (hclock : calls.Pairwise (fun a b => a.now ≤ b.now))
    (hown : ∀ a ∈ arrivals frameId calls, a.pkt ∈ ps) (hall : AllArrived ps calls) :
    TimelyDelivery frameId ps calls where
  kinds := by
    intro c hc
    have hin := hloop c hc
    obtain ⟨now, call⟩ := c
    cases call with
    | pushPacket pkt drops => exact Or.inl ⟨pkt, drops, rfl⟩
    | pollTimers drops => exact Or.inr ⟨drops, rfl⟩
    | _ => cases hin
  clock := hclock
  own := hown
  complete := hall
  idle := h.idle
  lifetime := h.lifetime

structure ArrivesOnce (frameId : UInt32) (frame : List UInt8) (calls : List TimedCall) : Prop where
  once : ((arrivals frameId calls).map Arrival.pkt).Perm
    (receivedPackets (UdpSender.frameDatagrams frameId frame))
  inTime : InTime (arrivals frameId calls)

section Frame

variable {frame : List UInt8}

theorem ArrivesOnce.allArrived (h : ArrivesOnce frameId frame calls) :
    AllArrived (receivedPackets (UdpSender.frameDatagrams frameId frame)) calls := by
  intro p hp
  obtain ⟨a, ha, rfl⟩ := List.mem_map.mp (h.once.mem_iff.mpr hp)
  exact ⟨_, (mem_arrivals_iff.mp ha).1, a.queueDropCount, rfl⟩

theorem ArrivesOnce.own (h : ArrivesOnce frameId frame calls) {a : Arrival}
    (ha : a ∈ arrivals frameId calls) :
    a.pkt ∈ receivedPackets (UdpSender.frameDatagrams frameId frame) :=
  h.once.mem_iff.mp (List.mem_map_of_mem ha)

theorem ArrivesOnce.timelyDelivery (h : ArrivesOnce frameId frame calls)
    (hloop : ∀ c ∈ calls, c.call.inLoop = true)
    (hclock : calls.Pairwise (fun a b => a.now ≤ b.now)) :
    TimelyDelivery frameId (receivedPackets (UdpSender.frameDatagrams frameId frame)) calls :=
  h.inTime.timelyDelivery hloop hclock (fun _ ha => h.own ha) h.allArrived

/-- A frame that arrives once is reported with the sender's bytes, once or not yet. -/
theorem ArrivesOnce.reports (h : ArrivesOnce frameId frame calls) (hne : frame ≠ [])
    (hcount : UdpSender.Countable frame) (hfits : frame.length ≤ maxFrameSize)
    (hloop : ∀ c ∈ calls, c.call.inLoop = true)
    (hclock : calls.Pairwise (fun a b => a.now ≤ b.now)) :
    (journalMachine maxFrameSize maxUdpPayload frameId).outputs [] calls = [] ∨
      ∃ r, (journalMachine maxFrameSize maxUdpPayload frameId).outputs [] calls = [r] ∧
        Delivered frame r := by
  have hsome : arrivals frameId calls ≠ [] := by
    intro hnil
    obtain ⟨pid, hpid, -⟩ := UdpSender.exists_last hne hcount
    have hmem : UdpSender.packet frameId frame pid ∈
        receivedPackets (UdpSender.frameDatagrams frameId frame) :=
      mem_receivedPackets_frameDatagrams.mpr ⟨pid, hpid, rfl⟩
    rw [← h.once.mem_iff, hnil] at hmem
    cases hmem
  have htimely := h.timelyDelivery hloop hclock
  obtain ⟨pre, now, p, drops, post, rfl, hid, hpost⟩ := exists_last_arrival hsome
  have hunpolled := unpolled_of_once nodup_receivedPackets
    (fun q hq => frameId_of_mem_receivedPackets hq) hid h.once
  have hall : AllArrived (receivedPackets (UdpSender.frameDatagrams frameId frame))
      (pre ++ [⟨now, .pushPacket p drops⟩]) := by
    intro q hq
    obtain ⟨⟨now', call⟩, hc, drops', hcall⟩ := htimely.complete q hq
    obtain rfl : call = .pushPacket q drops' := hcall
    rw [← List.singleton_append, ← List.append_assoc] at hc
    rcases List.mem_append.mp hc with hc | hc
    · exact ⟨_, hc, drops', rfl⟩
    · have harr : ⟨q, drops', now'⟩ ∈ arrivals frameId post :=
        mem_arrivals_iff.mpr ⟨hc, frameId_of_mem_receivedPackets hq⟩
      rw [hpost] at harr
      cases harr
  rw [← List.singleton_append, ← List.append_assoc] at htimely hloop
  obtain ⟨hstate, houts⟩ := htimely.quiet hfits hunpolled
  obtain ⟨e, he, -, hdelivered⟩ :=
    delivered_of_allArrived hne hcount hfits htimely.own_of_append hall
  rw [← List.singleton_append, ← List.append_assoc, OutputMachine.outputs_append, hstate, houts]
  rcases reports_of_no_arrivals he (fun c hc => hloop c (List.mem_append_right _ hc)) hpost with
    hnone | ⟨drops', hone⟩
  · exact Or.inl hnone
  · exact Or.inr ⟨_, hone, hdelivered drops'⟩

end Frame

end Journals

namespace ReceiverState

variable {clock : ℤ} {moves later : List ReceiverMove}

theorem exists_arrival_of_report {r : FrameResult}
    (h : .managed (.onFrameDone r) ∈ machine.outputs (init clock) moves) :
    ∃ a, a ∈ arrivals r.frameId (managerCalls clock moves) := by
  obtain ⟨before, later, k, e, rfl, he, ⟨drops, heq⟩ | heq⟩ := entry_of_output h
  · obtain rfl := ManagerOutput.onFrameDone.inj heq
    have hid : (e.result .complete drops).frameId = k := manager_ids he
    rw [(manager_run clock before).1, FrameReassemblerManager.find?_eq_entryOf] at he
    obtain ⟨a, ha⟩ := List.exists_mem_of_ne_nil
      (journal Receiver.maxFrameSize Receiver.payloadStride k (managerCalls clock before))
      (fun hnil => by simp [hnil] at he)
    refine ⟨a, ?_⟩
    rw [hid, managerCalls, OutputMachine.callsTo_append, arrivals_append]
    exact List.mem_append_left _ (mem_journal ha)
  · cases heq

theorem running_of_unsignalled (clock : ℤ) (h : .signal ∉ moves) :
    (machine.state (init clock) moves).shutdown = false ∧
      (machine.state (init clock) moves).worker.leaving = false ∧
      (machine.state (init clock) moves).worker ≠ .testEmpty := by
  induction moves using List.reverseRecOn with
  | nil => exact ⟨rfl, rfl, by simp [init]⟩
  | append_singleton moves a ih =>
    obtain ⟨hshutdown, hleaving, htest⟩ := ih (fun hm => h (List.mem_append_left _ hm))
    rw [OutputMachine.state_append]
    simp only [OutputMachine.state_cons, OutputMachine.state_nil, machine_step]
    generalize machine.state (init clock) moves = s at hshutdown hleaving htest ⊢
    cases a with
    | signal => exact absurd (List.mem_append_right _ List.mem_cons_self) h
    | advance elapsed => exact ⟨hshutdown, hleaving, htest⟩
    | rx outcome =>
      rcases s.rxStep_cases outcome with ⟨position, he⟩ | ⟨pkt, -, he⟩ <;> rw [step, he] <;>
        exact ⟨hshutdown, hleaving, htest⟩
    | worker =>
      refine ⟨by rw [step, s.workerStep_frame.2.1, hshutdown], ?_⟩
      rw [step]
      cases hw : s.worker with
      | popUntil =>
        rcases s.popUntil_cases (Or.inl hw) with he | he | ⟨pkt, rest, -, he⟩ <;> rw [he] <;>
          exact ⟨rfl, by simp⟩
      | waiting =>
        rcases s.popUntil_cases (Or.inr hw) with he | he | ⟨pkt, rest, -, he⟩ <;> rw [he] <;>
          exact ⟨rfl, by simp⟩
      | testShutdown => simp [workerStep, hw, hshutdown, WorkerPosition.leaving]
      | testTimer =>
        simp only [workerStep, hw]
        split_ifs <;> exact ⟨rfl, by simp⟩
      | testEmpty => exact absurd hw htest
      | startGrace => simp [hw, WorkerPosition.leaving] at hleaving
      | checkGrace => simp [hw, WorkerPosition.leaving] at hleaving
      | flushAll => simp [hw, WorkerPosition.leaving] at hleaving
      | ended => simp [hw, WorkerPosition.leaving] at hleaving
      | _ => simp [workerStep, hw, WorkerPosition.leaving]

theorem not_ended_of_unsignalled (clock : ℤ) (h : .signal ∉ moves) :
    (machine.state (init clock) moves).worker ≠ .ended := by
  intro hended
  have hleaving := (running_of_unsignalled clock h).2.1
  rw [hended] at hleaving
  cases hleaving

theorem acceptedPackets_length_le (es : List ReceiverEvent) :
    (acceptedPackets es).length ≤ (es.filterMap ReceiverEvent.pushedPacket).length := by
  induction es with
  | nil => exact le_rfl
  | cons e es ih =>
    cases e with
    | accepted pkt => exact Nat.succ_le_succ ih
    | rejected pkt => exact Nat.le_succ_of_le ih
    | _ => exact ih

/-- A packet is rejected only when at least a queue full of datagrams has been received. -/
theorem kept_of_few (h : (receipts clock moves).length ≤ Receiver.maxQueueSize) (pkt : RxPacket) :
    .rejected pkt ∉ machine.outputs (init clock) moves := by
  intro hmem
  obtain ⟨past, future, hsplit⟩ := List.append_of_mem hmem
  obtain ⟨before, a, after, past', future', rfl, -, hstep⟩ := machine.exists_step_of_outputs hsplit
  have hnow : .rejected pkt ∈ ((machine.state (init clock) before).step a).2 := by
    rw [← machine_step, hstep]
    exact List.mem_append_right _ List.mem_cons_self
  have hfifo := congrArg List.length (usedInOrder_run clock before).1.fifo
  have hpushes := congrArg List.length (pushesReceived_run clock before)
  have hfilter := List.length_filterMap_le receivedPacket (receipts clock before)
  have hle := acceptedPackets_length_le (machine.outputs (init clock) before)
  have hcapacity := (queue_bounded clock before).2
  have hreceipts : (receipts clock before).length + (machine.callsTo receipt
      (machine.state (init clock) before) (a :: after)).length ≤ Receiver.maxQueueSize := by
    rwa [receipts, OutputMachine.callsTo_append, List.length_append, ← receipts] at h
  generalize machine.state (init clock) before = s at *
  cases a with
  | rx outcome =>
    rcases s.rxStep_cases outcome with ⟨position, he⟩ | ⟨pkt', hrx, he⟩ <;> rw [step, he] at hnow
    · cases hnow
    · rcases s.queue.push_cases pkt' with ⟨-, hpush⟩ | ⟨hfull, -⟩
      · simp [hpush] at hnow
      · rw [hrx] at hpushes
        simp only [List.length_append, RxPosition.inHand, List.length_singleton] at hfifo hpushes
        omega
  | worker => exact rejected_notMem_workerStep s pkt hnow
  | _ => cases hnow

theorem acceptedPackets_of_kept {es : List ReceiverEvent} (h : ∀ pkt, .rejected pkt ∉ es) :
    acceptedPackets es = es.filterMap ReceiverEvent.pushedPacket := by
  refine List.filterMap_congr (fun e he => ?_)
  cases e with
  | rejected pkt => exact absurd he (h pkt)
  | _ => rfl

/-- Nothing that was received is still on its way to the manager. -/
structure TakenIn (s : ReceiverState) : Prop where
  rx : s.rx.inHand = []
  queue : s.queue.items = []
  worker : s.worker.inHand = []

theorem pushed_of_takenIn (hkept : ∀ pkt, .rejected pkt ∉ machine.outputs (init clock) moves)
    (htaken : TakenIn (machine.state (init clock) moves)) :
    (managerCalls clock moves).filterMap (fun c => c.call.pushed) =
      (receipts clock moves).filterMap receivedPacket := by
  have hfifo := (usedInOrder_run clock moves).1.fifo
  have hpushes := pushesReceived_run clock moves
  rw [PushesReceived, htaken.rx, List.append_nil] at hpushes
  rw [htaken.worker, htaken.queue, List.append_nil, List.append_nil,
    acceptedPackets_of_kept hkept] at hfifo
  rw [hfifo, hpushes]

/-- When nothing more is received, nothing more arrives. -/
theorem arrivals_of_silent (hkept : ∀ pkt, .rejected pkt ∉ machine.outputs (init clock) moves)
    (htaken : TakenIn (machine.state (init clock) moves))
    (hsilent : receipts clock (moves ++ later) = receipts clock moves) (frameId : UInt32) :
    arrivals frameId (managerCalls clock (moves ++ later)) =
      arrivals frameId (managerCalls clock moves) := by
  have hbefore := congrArg List.length (pushed_of_takenIn hkept htaken)
  have hfifo := congrArg List.length (usedInOrder_run clock (moves ++ later)).1.fifo
  have hpushes := congrArg List.length (pushesReceived_run clock (moves ++ later))
  have hle := acceptedPackets_length_le (machine.outputs (init clock) (moves ++ later))
  rw [hsilent] at hpushes
  have hcalls := machine.callsTo_append managerCall (init clock) moves later
  set more := machine.callsTo managerCall (machine.state (init clock) moves) later
  have hnone : more.filterMap (fun c => c.call.pushed) = [] := by
    refine List.eq_nil_of_length_eq_zero ?_
    simp only [managerCalls, hcalls, List.filterMap_append, List.length_append] at hfifo hbefore
    simp only [List.length_append] at hpushes
    omega
  rw [managerCalls, hcalls, arrivals_append, managerCalls, List.append_right_eq_self]
  refine List.filterMap_eq_nil_iff.mpr (fun c hc => ?_)
  have hpush := List.filterMap_eq_nil_iff.mp hnone c hc
  obtain ⟨now, call⟩ := c
  cases call with
  | pushPacket pkt drops => cases hpush
  | _ => rfl

theorem now_of_mem_managerCalls {c : TimedCall} (h : c ∈ managerCalls clock moves) :
    clock ≤ c.now ∧ c.now ≤ clock + (moves.map ReceiverMove.elapsed).sum := by
  have hclocks := (usedInOrder_run clock moves).1.clocks
  rw [List.cons_append, List.pairwise_cons] at hclocks
  have hnow : c.now ∈ (managerCalls clock moves).map TimedCall.now := List.mem_map_of_mem h
  refine ⟨hclocks.1 _ (List.mem_append_left _ hnow), ?_⟩
  have hlast := (List.pairwise_append.mp hclocks.2).2.2 _ hnow _ List.mem_cons_self
  rwa [state_clock] at hlast

theorem ascending_managerCalls (clock : ℤ) (moves : List ReceiverMove) :
    (managerCalls clock moves).Pairwise (fun a b => a.now ≤ b.now) := by
  have hclocks := (usedInOrder_run clock moves).1.clocks
  rw [List.cons_append, List.pairwise_cons] at hclocks
  exact List.pairwise_map.mp (List.pairwise_append.mp hclocks.2).1

/-- The datagrams `ds` are received, each once, and handed over; after that nothing is received,
no signal comes, and the worker goes on for 5 ms and a dozen moves. -/
structure Transfer (ds : List (List UInt8)) (clock : ℤ)
    (receiving waiting polling : List ReceiverMove) : Prop where
  once : (receipts clock receiving).Perm ds
  takenIn : TakenIn (machine.state (init clock) receiving)
  silent : receipts clock (receiving ++ (waiting ++ polling)) = receipts clock receiving
  unsignalled : .signal ∉ receiving ++ (waiting ++ polling)
  waited : 5 * 1000000 ≤ (waiting.map ReceiverMove.elapsed).sum
  polled : 11 < polling.countP ReceiverMove.isWorker

section Frames

variable {sent : List (UInt32 × List UInt8)} {frameId : UInt32} {frame : List UInt8}
variable {receiving waiting polling : List ReceiverMove}

theorem take_bufSize_of_mem {d : List UInt8} (h : d ∈ UdpSender.frameDatagrams frameId frame) :
    d.take Receiver.bufSize = d := by
  obtain ⟨pid, hpid, rfl⟩ := UdpSender.mem_frameDatagrams.mp h
  have hle := UdpSender.packetSize_le frame pid
  refine List.take_of_length_le ?_
  rw [UdpSender.datagram, List.length_append, UdpPacketHeader.bytes_length,
    UdpSender.slice_length]
  simp only [UdpPacketHeader.byteSize, maxUdpPayload, Receiver.bufSize] at hle ⊢
  omega

theorem receivedPacket_of_mem {d : List UInt8}
    (h : d ∈ UdpSender.frameDatagrams frameId frame) : receivedPacket d = rxDatagram d := by
  rw [receivedPacket, take_bufSize_of_mem h]

theorem receivedPackets_of_datagrams (sent : List (UInt32 × List UInt8)) :
    (sent.flatMap (fun f => UdpSender.frameDatagrams f.1 f.2)).filterMap receivedPacket =
      sent.flatMap (fun f => receivedPackets (UdpSender.frameDatagrams f.1 f.2)) := by
  rw [List.filterMap_flatMap]
  refine List.flatMap_congr (fun f _ => ?_)
  exact List.filterMap_congr (fun d hd => receivedPacket_of_mem hd)

theorem filter_receivedPackets (hdistinct : (sent.map Prod.fst).Nodup)
    (hsent : (frameId, frame) ∈ sent) :
    (sent.flatMap (fun f => receivedPackets (UdpSender.frameDatagrams f.1 f.2))).filter
        (fun p => p.hdr.frameId = frameId) =
      receivedPackets (UdpSender.frameDatagrams frameId frame) := by
  have hown : ∀ (k : UInt32) (f : List UInt8), k = frameId →
      (receivedPackets (UdpSender.frameDatagrams k f)).filter (fun p => p.hdr.frameId = frameId) =
        receivedPackets (UdpSender.frameDatagrams k f) := by
    intro k f hk
    refine List.filter_eq_self.mpr (fun p hp => ?_)
    simpa [hk] using frameId_of_mem_receivedPackets hp
  have hother : ∀ (k : UInt32) (f : List UInt8), k ≠ frameId →
      (receivedPackets (UdpSender.frameDatagrams k f)).filter
        (fun p => p.hdr.frameId = frameId) = [] := by
    intro k f hk
    refine List.filter_eq_nil_iff.mpr (fun p hp => ?_)
    simpa [frameId_of_mem_receivedPackets hp] using hk
  induction sent with
  | nil => cases hsent
  | cons f sent ih =>
    rw [List.map_cons, List.nodup_cons] at hdistinct
    rw [List.flatMap_cons, List.filter_append]
    rcases List.mem_cons.mp hsent with rfl | hlater
    · have hrest : (sent.flatMap (fun f =>
          receivedPackets (UdpSender.frameDatagrams f.1 f.2))).filter
            (fun p => p.hdr.frameId = frameId) = [] := by
        rw [List.filter_flatMap]
        refine List.flatMap_eq_nil_iff.mpr (fun g hg => hother g.1 g.2 ?_)
        rintro rfl
        exact hdistinct.1 (List.mem_map.mpr ⟨g, hg, rfl⟩)
      rw [hown _ _ rfl, hrest, List.append_nil]
    · have hne : f.1 ≠ frameId := by
        rintro rfl
        exact hdistinct.1 (List.mem_map.mpr ⟨_, hlater, rfl⟩)
      rw [hother _ _ hne, List.nil_append, ih hdistinct.2 hlater]

theorem map_pkt_arrivals (frameId : UInt32) (calls : List TimedCall) :
    (arrivals frameId calls).map Arrival.pkt =
      (calls.filterMap (fun c => c.call.pushed)).filter (fun p => p.hdr.frameId = frameId) := by
  induction calls with
  | nil => rfl
  | cons c calls ih =>
    have hcons : arrivals frameId (c :: calls) =
        (c.arrival frameId).toList ++ arrivals frameId calls := by
      cases harr : c.arrival frameId <;> simp [arrivals, harr]
    rw [hcons, List.map_append, ih]
    obtain ⟨now, call⟩ := c
    cases call with
    | pushPacket pkt drops =>
      by_cases hid : pkt.hdr.frameId = frameId <;>
        simp [TimedCall.arrival, ManagerCall.pushed, hid]
    | _ => rfl

theorem arrivesOnce_of_transfer (hdistinct : (sent.map Prod.fst).Nodup)
    (h : Transfer (sent.flatMap (fun f => UdpSender.frameDatagrams f.1 f.2)) clock
      receiving waiting polling)
    (hkept : ∀ pkt, .rejected pkt ∉ machine.outputs (init clock) receiving)
    (hinTime : InTime (arrivals frameId (managerCalls clock receiving)))
    (hsent : (frameId, frame) ∈ sent) :
    ArrivesOnce frameId frame (managerCalls clock receiving) where
  once := by
    rw [map_pkt_arrivals, pushed_of_takenIn hkept h.takenIn,
      ← filter_receivedPackets hdistinct hsent, ← receivedPackets_of_datagrams]
    exact (h.once.filterMap receivedPacket).filter _
  inTime := hinTime

theorem filter_reports (frameId : UInt32) (clock : ℤ) (moves : List ReceiverMove) :
    (reports (machine.outputs (init clock) moves)).filter (fun r => r.frameId = frameId) =
      (journalMachine Receiver.maxFrameSize Receiver.payloadStride frameId).outputs []
        (managerCalls clock moves) := by
  have htracks := (FrameReassemblerManager.tracks_new Receiver.maxFrameSize
    Receiver.payloadStride frameId).run (managerCalls clock moves)
  rw [← htracks.2, ← (manager_run clock moves).2, reports, reportsFor, List.filter_filterMap]
  refine List.filterMap_congr (fun out _ => ?_)
  cases out with
  | onFrameDone r =>
    by_cases hid : r.frameId = frameId <;>
      simp [ManagerOutput.report, frameView, Option.filter_some, hid]
  | writeFrameToFile data size isPartial => rfl

theorem not_settled_of_quiet (hunsignalled : .signal ∉ moves ++ later)
    (hquiet : (journalMachine Receiver.maxFrameSize Receiver.payloadStride frameId).outputs []
      (managerCalls clock (moves ++ later)) = []) :
    ¬ Settled frameId (machine.state (init clock) moves) later := by
  intro hsettled
  rcases hsettled.of_state with ⟨r, hr, hid⟩ | hended
  · have hmem : r ∈ (reports (machine.outputs (init clock) (moves ++ later))).filter
        (fun r => r.frameId = frameId) :=
      List.mem_filter.mpr ⟨mem_reports.mpr hr, by simpa using hid⟩
    rw [filter_reports, hquiet] at hmem
    cases hmem
  · exact not_ended_of_unsignalled clock hunsignalled hended

theorem find?_of_quiet (hloop : ∀ c ∈ managerCalls clock moves, c.call.inLoop = true)
    (hquiet : (journalMachine Receiver.maxFrameSize Receiver.payloadStride frameId).outputs []
      (managerCalls clock moves) = []) :
    (machine.state (init clock) moves).manager.frames.find? frameId =
      entryOf Receiver.maxFrameSize Receiver.payloadStride
        (arrivals frameId (managerCalls clock moves)) := by
  rw [(manager_run clock moves).1, FrameReassemblerManager.find?_eq_entryOf,
    journal_eq_arrivals hloop hquiet]

theorem ripe_of_arrivesOnce (hne : frame ≠ []) (hcount : UdpSender.Countable frame)
    (hfits : frame.length ≤ Receiver.maxFrameSize)
    (h : ArrivesOnce frameId frame (managerCalls clock moves))
    (hloop : ∀ c ∈ managerCalls clock moves, c.call.inLoop = true)
    (hquiet : (journalMachine Receiver.maxFrameSize Receiver.payloadStride frameId).outputs []
      (managerCalls clock moves) = []) :
    Ripe frameId (machine.state (init clock) moves) := by
  obtain ⟨e, he, hfull, -⟩ :=
    delivered_of_allArrived hne hcount hfits (fun a ha => h.own ha) h.allArrived
  exact ⟨⟨clock, moves, rfl⟩, e, (find?_of_quiet hloop hquiet).trans he, Or.inl hfull⟩

/-- A frame of a transfer is reported once, with the sender's bytes. -/
theorem reported_of_transfer (hdistinct : (sent.map Prod.fst).Nodup)
    (h : Transfer (sent.flatMap (fun f => UdpSender.frameDatagrams f.1 f.2)) clock
      receiving waiting polling)
    (hkept : ∀ pkt, .rejected pkt ∉ machine.outputs (init clock) receiving)
    (hinTime : InTime (arrivals frameId (managerCalls clock receiving)))
    (hsent : (frameId, frame) ∈ sent) (hne : frame ≠ [])
    (hfits : frame.length ≤ Receiver.maxFrameSize) :
    ∃ r, (reports (machine.outputs (init clock) (receiving ++ (waiting ++ polling)))).filter
      (fun r => r.frameId = frameId) = [r] ∧ Delivered frame r := by
  have hcount : UdpSender.Countable frame := by
    simp only [UdpSender.Countable, Receiver.maxFrameSize, maxUdpPayload] at hfits ⊢
    omega
  have honce := arrivesOnce_of_transfer hdistinct h hkept hinTime hsent
  have harrivals := arrivals_of_silent hkept h.takenIn h.silent frameId
  have honce' : ArrivesOnce frameId frame
      (managerCalls clock (receiving ++ (waiting ++ polling))) := by
    refine ⟨?_, ?_⟩ <;> rw [harrivals]
    · exact honce.once
    · exact honce.inTime
  have hrunning := not_ended_of_unsignalled clock h.unsignalled
  have hloop := (usedInOrder_run clock (receiving ++ (waiting ++ polling))).1.loop hrunning
  have hsplit := machine.callsTo_append managerCall (init clock) receiving (waiting ++ polling)
  rw [filter_reports]
  rcases honce'.reports hne hcount hfits hloop (ascending_managerCalls clock _) with hnone | hone
  · exfalso
    have hsettled : Settled frameId (machine.state (init clock) receiving)
        (waiting ++ polling) := by
      have hnone' := hnone
      rw [managerCalls, hsplit, OutputMachine.outputs_append] at hnone'
      have hripe := ripe_of_arrivesOnce hne hcount hfits honce
        (fun c hc => hloop c (by rw [managerCalls, hsplit]; exact List.mem_append_left _ hc))
        (List.append_eq_nil_iff.mp hnone').1
      exact hripe.settled h.waited h.polled
    exact not_settled_of_quiet h.unsignalled hnone hsettled
  · exact hone

theorem id_of_report
    (h : Transfer (sent.flatMap (fun f => UdpSender.frameDatagrams f.1 f.2)) clock
      receiving waiting polling)
    (hkept : ∀ pkt, .rejected pkt ∉ machine.outputs (init clock) receiving) {r : FrameResult}
    (hr : r ∈ reports (machine.outputs (init clock) (receiving ++ (waiting ++ polling)))) :
    r.frameId ∈ sent.map Prod.fst := by
  obtain ⟨a, ha⟩ := exists_arrival_of_report (mem_reports.mp hr)
  rw [arrivals_of_silent hkept h.takenIn h.silent] at ha
  have hpkt : a.pkt ∈ (arrivals r.frameId (managerCalls clock receiving)).map Arrival.pkt :=
    List.mem_map_of_mem ha
  rw [map_pkt_arrivals, pushed_of_takenIn hkept h.takenIn] at hpkt
  have hsent := (h.once.filterMap receivedPacket).mem_iff.mp (List.mem_of_mem_filter hpkt)
  rw [receivedPackets_of_datagrams] at hsent
  obtain ⟨f, hf, hmem⟩ := List.mem_flatMap.mp hsent
  rw [← (mem_arrivals_iff.mp ha).2, frameId_of_mem_receivedPackets hmem]
  exact List.mem_map_of_mem hf

end Frames

theorem inTime_of_elapsed (h : (moves.map ReceiverMove.elapsed).sum ≤ frameIdleTimeout)
    (frameId : UInt32) : InTime (arrivals frameId (managerCalls clock moves)) := by
  refine inTime_of_forall (fun a ha b hb => ?_)
  have hfirst := (now_of_mem_managerCalls (mem_arrivals_iff.mp ha).1).1
  have hlast := (now_of_mem_managerCalls (mem_arrivals_iff.mp hb).1).2
  dsimp only at hfirst hlast
  omega

/-- When one sender's frames are transferred, with no packet rejected and the packets of each
handed over soon enough, the receiver reports each of them once, with its bytes under its id, and
nothing else. -/
theorem frames_transferred {frames : List (List UInt8 × List SendOutcome)}
    {receiving waiting polling : List ReceiverMove} (hlength : frames.length ≤ 2 ^ 32)
    (hframes : ∀ f ∈ frames, f.1 ≠ [] ∧ f.1.length ≤ Receiver.maxFrameSize ∧
      UdpSender.Completes f.1 f.2)
    (htransfer : Transfer ((sendFrames .new frames).flatMap Prod.snd) clock
      receiving waiting polling)
    (hkept : ∀ pkt, .rejected pkt ∉ machine.outputs (init clock) receiving)
    (hinTime : ∀ frameId, InTime (arrivals frameId (managerCalls clock receiving))) :
    let rs := reports (machine.outputs (init clock) (receiving ++ (waiting ++ polling)))
    (rs.map FrameResult.frameId).Perm ((sendFrames .new frames).map Prod.fst) ∧
      ∀ i frame outcomes, frames[i]? = some (frame, outcomes) →
        ∃ r ∈ rs, r.frameId = UInt32.ofNat (i + 1) ∧ Delivered frame r := by
  intro rs
  set sent := numbered 0 (frames.map Prod.fst) with hnumbered
  have hall : sendFrames .new frames =
      sent.map (fun f => (f.1, UdpSender.frameDatagrams f.1 f.2)) :=
    sendFrames_completes .new (fun f hf => (hframes f hf).2.2)
  have hids : (sendFrames .new frames).map Prod.fst = sent.map Prod.fst := by
    rw [hall, List.map_map]
    rfl
  have hdistinct : (sent.map Prod.fst).Nodup := numbered_distinct 0 (by simpa using hlength)
  rw [hall, List.flatMap_map] at htransfer
  have hmember : ∀ f ∈ sent, f.2 ≠ [] ∧ f.2.length ≤ Receiver.maxFrameSize := by
    intro f hf
    obtain ⟨i, hi⟩ := List.mem_iff_getElem?.mp hf
    rw [hnumbered, numbered_getElem?, List.getElem?_map, Option.map_map] at hi
    obtain ⟨f', hf', rfl⟩ := Option.map_eq_some_iff.mp hi
    have hgiven := hframes f' (List.mem_of_getElem? hf')
    exact ⟨hgiven.1, hgiven.2.1⟩
  have hreported : ∀ f ∈ sent, ∃ r, rs.filter (fun r => r.frameId = f.1) = [r] ∧
      Delivered f.2 r := fun f hf =>
    reported_of_transfer hdistinct htransfer hkept (hinTime f.1) hf (hmember f hf).1
      (hmember f hf).2
  refine ⟨?_, ?_⟩
  · rw [hids, List.perm_iff_count]
    intro frameId
    have hcount : (rs.map FrameResult.frameId).count frameId =
        (rs.filter (fun r => r.frameId = frameId)).length := by
      rw [List.count, List.countP_map, List.countP_eq_length_filter]
      rfl
    by_cases hid : frameId ∈ sent.map Prod.fst
    · obtain ⟨f, hf, rfl⟩ := List.mem_map.mp hid
      obtain ⟨r, hr, -⟩ := hreported f hf
      rw [hcount, hr, List.count_eq_one_of_mem hdistinct hid]
      rfl
    · rw [List.count_eq_zero_of_not_mem hid, List.count_eq_zero]
      intro hmem
      obtain ⟨r, hr, rfl⟩ := List.mem_map.mp hmem
      exact hid (id_of_report htransfer hkept hr)
  · intro i frame outcomes hi
    have hsent : (UInt32.ofNat (i + 1), frame) ∈ sent := by
      refine List.mem_of_getElem? (i := i) ?_
      rw [hnumbered, numbered_getElem?, List.getElem?_map, hi]
      simp
    obtain ⟨r, hr, hdelivered⟩ := hreported _ hsent
    have hmem : r ∈ rs.filter (fun r => r.frameId = UInt32.ofNat (i + 1)) := by
      rw [hr]
      exact List.mem_cons_self
    exact ⟨r, List.mem_of_mem_filter hmem, by simpa using List.of_mem_filter hmem, hdelivered⟩

def swappedReceiving : List ReceiverMove :=
  receiveMoves (UdpSender.datagram 2 [8] 0) ++ receiveMoves (UdpSender.datagram 1 [7] 0) ++
    List.replicate 9 .worker

/-- Two frames, of which the second is received first, are both reported. -/
theorem frames_transferred_swapped :
    let rs := reports (machine.outputs (init 0)
      (swappedReceiving ++ ([.advance 5000000] ++ List.replicate 12 .worker)))
    (rs.map FrameResult.frameId).Perm [1, 2] ∧
      ∀ i frame outcomes,
        [([7], [SendOutcome.sent]), ([8], [SendOutcome.sent])][i]? = some (frame, outcomes) →
          ∃ r ∈ rs, r.frameId = UInt32.ofNat (i + 1) ∧ Delivered frame r := by
  have hframes : ∀ f ∈ [([7], [SendOutcome.sent]), ([8], [SendOutcome.sent])],
      f.1 ≠ [] ∧ f.1.length ≤ Receiver.maxFrameSize ∧ UdpSender.Completes f.1 f.2 := by
    intro f hf
    simp only [List.mem_cons, List.not_mem_nil, or_false] at hf
    rcases hf with rfl | rfl <;>
      exact ⟨by decide, by decide, by decide, by decide, by decide⟩
  have htransfer : Transfer ((sendFrames .new [([7], [SendOutcome.sent]),
      ([8], [SendOutcome.sent])]).flatMap Prod.snd) 0 swappedReceiving [.advance 5000000]
      (List.replicate 12 .worker) := {
    once := by decide +kernel
    takenIn := by constructor <;> decide +kernel
    silent := by decide +kernel
    unsignalled := by simp [swappedReceiving, receiveMoves]
    waited := by decide
    polled := by decide }
  have hfew : (receipts 0 swappedReceiving).length ≤ Receiver.maxQueueSize := by decide +kernel
  exact frames_transferred (by decide) hframes htransfer (kept_of_few hfew)
    (inTime_of_elapsed (by decide))

end ReceiverState

end HvFrame
