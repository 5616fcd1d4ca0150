import HvFrame.FrameReassemblerManager
import HvFrame.FrameContents

/-!
# Frame journals

Seen from one `frame_id`, the manager is a much simpler machine: it keeps the list of
packets that arrived for this id since the entry was opened, and empties the list when it
reports the frame. The live entry is a function of this journal, and so is every result.
The simulation below holds for all calls on all frames.
-/

namespace HvFrame

/-- A packet of the observed frame with the drop count and the clock of its `pushPacket`. -/
structure Arrival where
  pkt : RxPacket
  queueDropCount : ℕ
  now : ℤ

def entryOf (maxFrameSize payloadStride : ℕ) : List Arrival → Option FrameEntry
  | [] => none
  | a :: as => some {
      reassembler := ((FrameReassemblerV2.new maxFrameSize payloadStride).startNewFrame
        a.pkt.hdr.frameId a.pkt.hdr.packetCount).pushAll ((a :: as).map Arrival.pkt)
      firstPacketTime := a.now
      lastUpdate := ((a :: as).getLast (List.cons_ne_nil a as)).now
      queueDropAtStart := a.queueDropCount }

def reportJournal (maxFrameSize payloadStride : ℕ) (verdict : FrameEntry → Option FrameState)
    (queueDropNow : ℕ) (j : List Arrival) : List Arrival × List FrameResult :=
  match entryOf maxFrameSize payloadStride j with
  | none => (j, [])
  | some entry =>
      match verdict entry with
      | none => (j, [])
      | some state => ([], [entry.result state queueDropNow])

def journalStep (maxFrameSize payloadStride : ℕ) (frameId : UInt32) (j : List Arrival)
    (c : TimedCall) : List Arrival × List FrameResult :=
  match c.call with
  | .pushPacket pkt queueDropCount =>
      if pkt.hdr.frameId = frameId then (j ++ [⟨pkt, queueDropCount, c.now⟩], []) else (j, [])
  | .pollTimers queueDropNow =>
      reportJournal maxFrameSize payloadStride (fun e => e.timerVerdict c.now) queueDropNow j
  | .forceEmitAll queueDropNow =>
      reportJournal maxFrameSize payloadStride (fun e => some e.forcedState) queueDropNow j
  | .pollFlush =>
      (if ((entryOf maxFrameSize payloadStride j).bind (fun e => e.flushWrite c.now)).isSome
        then [] else j, [])
  | .flushAll => ([], [])

def journalMachine (maxFrameSize payloadStride : ℕ) (frameId : UInt32) :
    OutputMachine (List Arrival) TimedCall FrameResult :=
  ⟨journalStep maxFrameSize payloadStride frameId⟩

/-- The journal of `frameId` after some calls on a fresh manager. -/
def journal (maxFrameSize payloadStride : ℕ) (frameId : UInt32) (calls : List TimedCall) :
    List Arrival :=
  (journalMachine maxFrameSize payloadStride frameId).state [] calls

def Arrival.call (a : Arrival) : TimedCall := ⟨a.now, .pushPacket a.pkt a.queueDropCount⟩

def TimedCall.arrival (frameId : UInt32) (c : TimedCall) : Option Arrival :=
  match c.call with
  | .pushPacket pkt drops => if pkt.hdr.frameId = frameId then some ⟨pkt, drops, c.now⟩ else none
  | _ => none

def arrivals (frameId : UInt32) (calls : List TimedCall) : List Arrival :=
  calls.filterMap (TimedCall.arrival frameId)

/-- The observer of one frame sees the results that carry its id. -/
def frameView (frameId : UInt32) : ManagerOutput → Option FrameResult
  | .onFrameDone r => if r.frameId = frameId then some r else none
  | .writeFrameToFile .. => none

def reportsFor (frameId : UInt32) (outs : List ManagerOutput) : List FrameResult :=
  outs.filterMap (frameView frameId)

variable {maxFrameSize payloadStride : ℕ} {frameId : UInt32} {calls : List TimedCall}

@[simp] theorem journalMachine_step (j : List Arrival) (c : TimedCall) :
    (journalMachine maxFrameSize payloadStride frameId).step j c =
      journalStep maxFrameSize payloadStride frameId j c := rfl

@[simp] theorem entryOf_nil : entryOf maxFrameSize payloadStride [] = none := rfl

theorem entryOf_concat (j : List Arrival) (a : Arrival) :
    entryOf maxFrameSize payloadStride (j ++ [a]) =
      some (((entryOf maxFrameSize payloadStride j).getD
        (.opened maxFrameSize payloadStride a.pkt a.queueDropCount a.now)).receive
          a.pkt a.now) := by
  cases j with
  | nil => rfl
  | cons b j =>
    simp [entryOf, FrameEntry.receive, FrameReassemblerV2.pushAll]

@[simp] theorem entryOf_eq_none {j : List Arrival} :
    entryOf maxFrameSize payloadStride j = none ↔ j = [] := by
  cases j <;> simp [entryOf]

theorem reportJournal_skip {verdict : FrameEntry → Option FrameState} {j : List Arrival}
    (h : ∀ e, entryOf maxFrameSize payloadStride j = some e → verdict e = none) (drops : ℕ) :
    reportJournal maxFrameSize payloadStride verdict drops j = (j, []) := by
  cases he : entryOf maxFrameSize payloadStride j with
  | none => simp [reportJournal, he]
  | some e => simp [reportJournal, he, h e he]

theorem reportJournal_report {verdict : FrameEntry → Option FrameState} {j : List Arrival}
    {e : FrameEntry} {state : FrameState}
    (he : entryOf maxFrameSize payloadStride j = some e) (hv : verdict e = some state)
    (drops : ℕ) :
    reportJournal maxFrameSize payloadStride verdict drops j = ([], [e.result state drops]) := by
  simp [reportJournal, he, hv]

theorem mem_of_mem_reportJournal {verdict : FrameEntry → Option FrameState} {drops : ℕ}
    {j : List Arrival} {a : Arrival}
    (h : a ∈ (reportJournal maxFrameSize payloadStride verdict drops j).1) : a ∈ j := by
  cases he : entryOf maxFrameSize payloadStride j with
  | none => simpa [reportJournal, he] using h
  | some e =>
    cases hv : verdict e with
    | none => simpa [reportJournal, he, hv] using h
    | some state =>
      rw [reportJournal_report he hv] at h
      cases h

theorem arrivals_append (frameId : UInt32) (calls calls' : List TimedCall) :
    arrivals frameId (calls ++ calls') = arrivals frameId calls ++ arrivals frameId calls' :=
  List.filterMap_append

theorem mem_arrivals_iff {a : Arrival} :
    a ∈ arrivals frameId calls ↔
      ⟨a.now, .pushPacket a.pkt a.queueDropCount⟩ ∈ calls ∧ a.pkt.hdr.frameId = frameId := by
  simp only [arrivals, List.mem_filterMap]
  constructor
  · rintro ⟨⟨now, call⟩, hmem, harr⟩
    cases call with
    | pushPacket pkt drops =>
      simp only [TimedCall.arrival] at harr
      split_ifs at harr with hid
      obtain rfl := Option.some.inj harr
      exact ⟨hmem, hid⟩
    | _ => simp [TimedCall.arrival] at harr
  · rintro ⟨hmem, hid⟩
    exact ⟨_, hmem, by simp [TimedCall.arrival, hid]⟩

/-- All that a call can do to a journal: nothing, record an arrival of the frame, drop the
journal, or report it. -/
theorem journalStep_cases (j : List Arrival) (c : TimedCall) :
    (∃ a, c.arrival frameId = some a ∧
        journalStep maxFrameSize payloadStride frameId j c = (j ++ [a], [])) ∨
      (c.arrival frameId = none ∧
        (journalStep maxFrameSize payloadStride frameId j c = (j, []) ∨
          journalStep maxFrameSize payloadStride frameId j c = ([], []) ∨
          ∃ e state drops, entryOf maxFrameSize payloadStride j = some e ∧
            journalStep maxFrameSize payloadStride frameId j c =
              ([], [e.result state drops]))) := by
  have hreport : ∀ (verdict : FrameEntry → Option FrameState) (drops : ℕ),
      reportJournal maxFrameSize payloadStride verdict drops j = (j, []) ∨
        ∃ e state drops', entryOf maxFrameSize payloadStride j = some e ∧
          reportJournal maxFrameSize payloadStride verdict drops j =
            ([], [e.result state drops']) := by
    intro verdict drops
    by_cases h : ∀ e, entryOf maxFrameSize payloadStride j = some e → verdict e = none
    · exact Or.inl (reportJournal_skip h drops)
    · push Not at h
      obtain ⟨e, he, hv⟩ := h
      obtain ⟨state, hstate⟩ := Option.ne_none_iff_exists'.mp hv
      exact Or.inr ⟨e, state, drops, he, reportJournal_report he hstate drops⟩
  obtain ⟨now, call⟩ := c
  cases call with
  | pushPacket pkt drops =>
    by_cases hid : pkt.hdr.frameId = frameId
    · exact Or.inl ⟨⟨pkt, drops, now⟩, by simp [TimedCall.arrival, hid], by simp [journalStep, hid]⟩
    · exact Or.inr ⟨by simp [TimedCall.arrival, hid], Or.inl (by simp [journalStep, hid])⟩
  | pollTimers drops =>
    exact Or.inr ⟨rfl, (hreport (fun e => e.timerVerdict now) drops).imp_right Or.inr⟩
  | forceEmitAll drops =>
    exact Or.inr ⟨rfl, (hreport (fun e => some e.forcedState) drops).imp_right Or.inr⟩
  | flushAll => exact Or.inr ⟨rfl, Or.inr (Or.inl rfl)⟩
  | pollFlush =>
    refine Or.inr ⟨rfl, ?_⟩
    simp only [journalStep]
    split_ifs
    · exact Or.inr (Or.inl rfl)
    · exact Or.inl rfl

theorem journal_concat (maxFrameSize payloadStride : ℕ) (frameId : UInt32)
    (calls : List TimedCall) (c : TimedCall) :
    journal maxFrameSize payloadStride frameId (calls ++ [c]) =
      (journalStep maxFrameSize payloadStride frameId
        (journal maxFrameSize payloadStride frameId calls) c).1 := by
  simp [journal]

theorem journal_pushes {before : List TimedCall} {js : List Arrival}
    (hfree : journal maxFrameSize payloadStride frameId before = [])
    (hid : ∀ a ∈ js, a.pkt.hdr.frameId = frameId) :
    journal maxFrameSize payloadStride frameId (before ++ js.map Arrival.call) = js := by
  induction js using List.reverseRecOn with
  | nil => simpa using hfree
  | append_singleton js a ih =>
    have ha : a.pkt.hdr.frameId = frameId := hid a (by simp)
    have hprev := ih (fun b hb => hid b (List.mem_append_left _ hb))
    rw [List.map_append, List.map_singleton, ← List.append_assoc, journal_concat, hprev]
    simp [journalStep, Arrival.call, ha]

theorem mem_journal {a : Arrival} (h : a ∈ journal maxFrameSize payloadStride frameId calls) :
    a ∈ arrivals frameId calls := by
  induction calls using List.reverseRecOn with
  | nil => cases h
  | append_singleton calls c ih =>
    rw [journal_concat] at h
    rw [arrivals_append]
    rcases journalStep_cases (journal maxFrameSize payloadStride frameId calls) c with
      ⟨b, hb, he⟩ | ⟨-, he | he | ⟨e, state, drops, -, he⟩⟩
    · rw [he] at h
      rcases List.mem_append.mp h with h | h
      · exact List.mem_append_left _ (ih h)
      · refine List.mem_append_right _ ?_
        rw [List.mem_singleton.mp h]
        simp [arrivals, hb]
    · rw [he] at h
      exact List.mem_append_left _ (ih h)
    · rw [he] at h
      cases h
    · rw [he] at h
      cases h

theorem mem_reportsFor {outs : List ManagerOutput} {r : FrameResult} :
    r ∈ reportsFor frameId outs ↔ .onFrameDone r ∈ outs ∧ r.frameId = frameId := by
  simp only [reportsFor, List.mem_filterMap]
  constructor
  · rintro ⟨o, ho, hview⟩
    cases o with
    | onFrameDone r' =>
      simp only [frameView] at hview
      split_ifs at hview with hid
      obtain rfl := Option.some.inj hview
      exact ⟨ho, hid⟩
    | writeFrameToFile frame size isPartial => simp [frameView] at hview
  · rintro ⟨hr, hid⟩
    exact ⟨_, hr, by simp [frameView, hid]⟩

theorem flushWrite_unseen (entry : FrameEntry) (now : ℤ) :
    (entry.flushWrite now).bind (frameView frameId) = none := by
  cases h : entry.flushVerdict now <;> simp [FrameEntry.flushWrite, h, frameView]

theorem FrameReassemblerV2.pushPacket_currentFrameId (fr : FrameReassemblerV2)
    (hdr : UdpPacketHeader) (payload : ℕ → UInt8) (gap : Bool) :
    (fr.pushPacket hdr payload gap).currentFrameId = fr.currentFrameId := by
  rcases fr.pushPacket_cases hdr payload gap with ⟨offset, -, he⟩ | ⟨-, he⟩ <;> rw [he]
  rfl

/-- The entry of a journal is a reassembly of its packets, announced by the first. -/
theorem entryOf_reflects {a : Arrival} {as : List Arrival} {e : FrameEntry}
    (h : entryOf maxFrameSize payloadStride (a :: as) = some e) :
    e.reassembler.Reflects maxFrameSize payloadStride a.pkt.hdr.frameId a.pkt.hdr.packetCount
      ((a :: as).map Arrival.pkt) := by
  obtain rfl := Option.some.inj h
  exact FrameReassemblerV2.reflects_pushAll _ _ _ _ _

namespace FrameReassemblerManager

structure Tracks (maxFrameSize payloadStride : ℕ) (frameId : UInt32)
    (m : FrameReassemblerManager) (j : List Arrival) : Prop where
  maxSize : m.maxFrameSize = maxFrameSize
  stride : m.payloadStride = payloadStride
  live : m.frames.find? frameId = entryOf maxFrameSize payloadStride j
  own : ∀ a ∈ j, a.pkt.hdr.frameId = frameId
  ids : ∀ k e, m.frames.find? k = some e → e.reassembler.currentFrameId = k

variable {m : FrameReassemblerManager} {j : List Arrival}

theorem tracks_new (maxFrameSize payloadStride : ℕ) (frameId : UInt32) :
    Tracks maxFrameSize payloadStride frameId (new maxFrameSize payloadStride) [] where
  maxSize := rfl
  stride := rfl
  live := rfl
  own := by simp
  ids := by simp [new]

theorem Tracks.pushPacket (h : Tracks maxFrameSize payloadStride frameId m j) (pkt : RxPacket)
    (drops : ℕ) (now : ℤ) :
    Tracks maxFrameSize payloadStride frameId (m.pushPacket pkt drops now)
      (if pkt.hdr.frameId = frameId then j ++ [⟨pkt, drops, now⟩] else j) where
  maxSize := h.maxSize
  stride := h.stride
  live := by
    rw [pushPacket_find?]
    split_ifs with hid
    · rw [entryOf_concat, ← h.live, h.maxSize, h.stride, hid]
    · exact h.live
  own := by
    intro a ha
    split_ifs at ha with hid
    · rcases List.mem_append.mp ha with ha | ha
      · exact h.own a ha
      · rw [List.mem_singleton.mp ha]
        exact hid
    · exact h.own a ha
  ids := by
    intro k e he
    rw [pushPacket_find?] at he
    split_ifs at he with hid
    · obtain rfl := Option.some.inj he
      rw [FrameEntry.receive, FrameReassemblerV2.pushPacket_currentFrameId, ← hid]
      cases hf : m.frames.find? pkt.hdr.frameId with
      | none => rfl
      | some e => exact h.ids _ e hf
    · exact h.ids k e he

theorem Tracks.emitLoop (h : Tracks maxFrameSize payloadStride frameId m j)
    (verdict : FrameEntry → Option FrameState) (drops : ℕ) :
    Tracks maxFrameSize payloadStride frameId (m.emitLoop verdict drops).1
        (reportJournal maxFrameSize payloadStride verdict drops j).1 ∧
      reportsFor frameId (m.emitLoop verdict drops).2 =
        (reportJournal maxFrameSize payloadStride verdict drops j).2 := by
  have hids : ∀ k e, (m.emitLoop verdict drops).1.frames.find? k = some e →
      e.reassembler.currentFrameId = k := by
    intro k e he
    rw [emitLoop_find?] at he
    exact h.ids k e (Option.filter_eq_some_iff.mp he).1
  have hfind := emitLoop_find? m verdict drops frameId
  have hother : ∀ e ∈ m.frames.entries, e.1 ≠ frameId → ∀ d,
      ((verdict e.2).map (fun state => (e.2, state))) = some d →
        frameView frameId (.onFrameDone (d.1.result d.2 drops)) = none := by
    intro e he hne d hd
    obtain ⟨state, -, rfl⟩ := Option.map_eq_some_iff.mp hd
    have hid := h.ids e.1 e.2 ((OrderedMap.mem_entries_iff _ _ _).mp he)
    simp [frameView, FrameEntry.result, hid, hne]
  have hreports : reportsFor frameId (m.emitLoop verdict drops).2 =
      (((m.frames.find? frameId).bind (fun e => (verdict e).map (fun state => (e, state)))).bind
        (fun d => frameView frameId (.onFrameDone (d.1.result d.2 drops)))).toList := by
    rw [(emitLoop_reports m verdict drops).2, reportsFor, List.filterMap_map, due]
    exact OrderedMap.filterMap_verdicts (fun _ e => (verdict e).map (fun state => (e, state)))
      (fun d => frameView frameId (.onFrameDone (d.1.result d.2 drops))) m.frames.sorted hother
  have hown : ∀ a ∈ (reportJournal maxFrameSize payloadStride verdict drops j).1,
      a.pkt.hdr.frameId = frameId := fun a ha => h.own a (mem_of_mem_reportJournal ha)
  rw [hreports]
  rw [h.live] at hfind ⊢
  cases he : entryOf maxFrameSize payloadStride j with
  | none =>
    refine ⟨⟨h.maxSize, h.stride, ?_, hown, hids⟩, by simp [reportJournal, he]⟩
    simpa [reportJournal, he] using hfind
  | some e =>
    have hid := h.ids frameId e (h.live.trans he)
    cases hv : verdict e with
    | none =>
      refine ⟨⟨h.maxSize, h.stride, ?_, hown, hids⟩, by simp [reportJournal, he, hv]⟩
      simpa [reportJournal, he, hv, Option.filter_some] using hfind
    | some state =>
      refine ⟨⟨h.maxSize, h.stride, ?_, hown, hids⟩, ?_⟩
      · simpa [reportJournal, he, hv, Option.filter_some] using hfind
      · simp [reportJournal, he, hv, frameView, FrameEntry.result, hid]

/-- One call moves the manager and the journal together, with the same reports. -/
theorem Tracks.step (h : Tracks maxFrameSize payloadStride frameId m j) (c : TimedCall) :
    Tracks maxFrameSize payloadStride frameId (m.step c).1
        (journalStep maxFrameSize payloadStride frameId j c).1 ∧
      reportsFor frameId (m.step c).2 =
        (journalStep maxFrameSize payloadStride frameId j c).2 := by
  obtain ⟨now, call⟩ := c
  cases call with
  | pushPacket pkt drops =>
    have hpush := h.pushPacket pkt drops now
    simp only [FrameReassemblerManager.step, journalStep]
    split_ifs at hpush ⊢ with hid <;> exact ⟨hpush, rfl⟩
  | pollTimers drops => exact h.emitLoop (fun e => e.timerVerdict now) drops
  | forceEmitAll drops => exact h.emitLoop (fun e => some e.forcedState) drops
  | flushAll =>
    refine ⟨⟨h.maxSize, h.stride, rfl, by simp [journalStep],
      by simp [FrameReassemblerManager.step, flushAll]⟩, ?_⟩
    simp only [FrameReassemblerManager.step, flushAll, journalStep, reportsFor, List.filterMap_map,
      List.filterMap_eq_nil_iff]
    intro e _
    rfl
  | pollFlush =>
    have hids : ∀ k e, (m.pollFlush now).1.frames.find? k = some e →
        e.reassembler.currentFrameId = k := by
      intro k e he
      rw [pollFlush_find?] at he
      exact h.ids k e (Option.filter_eq_some_iff.mp he).1
    have hfind := pollFlush_find? m now frameId
    rw [h.live] at hfind
    refine ⟨⟨h.maxSize, h.stride, hfind.trans ?_, ?_, hids⟩, ?_⟩
    · cases he : entryOf maxFrameSize payloadStride j with
      | none => simp [journalStep, he]
      | some e => cases hw : e.flushWrite now <;> simp [journalStep, he, hw, Option.filter_some]
    · intro a ha
      simp only [journalStep] at ha
      split_ifs at ha
      · simp at ha
      · exact h.own a ha
    · simp only [FrameReassemblerManager.step, pollFlush_writes, reportsFor,
        List.filterMap_filterMap, flushWrite_unseen, List.filterMap_none, journalStep]

/-- The manager's run, observed at `frameId`, is the run of the journal. -/
theorem Tracks.run (h : Tracks maxFrameSize payloadStride frameId m j) (calls : List TimedCall) :
    Tracks maxFrameSize payloadStride frameId (machine.state m calls)
        ((journalMachine maxFrameSize payloadStride frameId).state j calls) ∧
      reportsFor frameId (machine.outputs m calls) =
        (journalMachine maxFrameSize payloadStride frameId).outputs j calls :=
  machine.simulation (journalMachine maxFrameSize payloadStride frameId) (frameView frameId)
    (fun _ _ c ht => ht.step c) h calls

/-- The live entry of any frame is the entry of its journal. -/
theorem find?_eq_entryOf (maxFrameSize payloadStride : ℕ) (calls : List TimedCall) (k : UInt32) :
    (machine.state (new maxFrameSize payloadStride) calls).frames.find? k =
      entryOf maxFrameSize payloadStride (journal maxFrameSize payloadStride k calls) :=
  ((tracks_new maxFrameSize payloadStride k).run calls).1.live

theorem currentFrameId_of_find? {calls : List TimedCall} {k : UInt32} {e : FrameEntry}
    (h : (machine.state (new maxFrameSize payloadStride) calls).frames.find? k = some e) :
    e.reassembler.currentFrameId = k :=
  ((tracks_new maxFrameSize payloadStride k).run calls).1.ids k e h

theorem reflects_of_find? {calls : List TimedCall} {k : UInt32} {e : FrameEntry}
    (h : (machine.state (new maxFrameSize payloadStride) calls).frames.find? k = some e) :
    ∃ count ps, e.reassembler.Reflects maxFrameSize payloadStride k count ps := by
  have hid := currentFrameId_of_find? h
  rw [find?_eq_entryOf] at h
  cases hj : journal maxFrameSize payloadStride k calls with
  | nil => simp [hj] at h
  | cons a as =>
    rw [hj] at h
    have href := entryOf_reflects h
    rw [← href.id, hid] at href
    exact ⟨_, _, href⟩

end FrameReassemblerManager

end HvFrame
