import HvFrame.FrameAccounts
import HvFrame.FrameCoverage
import HvFrame.TimerPolls

/-!
# Reports of frames that hold nothing

`pushPacket` of the manager opens the entry before the reassembler decides whether to store the
packet. An entry all of whose packets are rejected holds nothing, and the emitting loops report
and count it like any other; `flushAll` alone asks whether there is a packet.
-/

namespace HvFrame

/-- No packet since the first is stored: each is out of range or too long for the buffer. -/
def AllRejected (maxFrameSize payloadStride : ℕ) (j : List Arrival) : Prop :=
  ∀ first ∈ j.head?, ∀ a ∈ j,
    ¬ Admissible maxFrameSize payloadStride first.pkt.hdr.packetCount a.pkt

def TimedCall.Emits (c : TimedCall) (e : FrameEntry) : Prop :=
  (∃ drops, c.call = .pollTimers drops ∧ e.IsDue c.now) ∨ ∃ drops, c.call = .forceEmitAll drops

/-- No `pollTimers` call finds a due entry, and no `forceEmitAll` call finds an entry, all of
whose packets were rejected. -/
def NeverEmitsRejected (maxFrameSize payloadStride : ℕ) (calls : List TimedCall) : Prop :=
  ∀ x ∈ positions calls, ∀ kv ∈ (FrameReassemblerManager.machine.state
    (FrameReassemblerManager.new maxFrameSize payloadStride) x.1).frames.entries,
    x.2.Emits kv.2 →
      ¬ AllRejected maxFrameSize payloadStride (journal maxFrameSize payloadStride kv.1 x.1)

/-- Every frame that is reported or counted holds a packet. -/
structure NoPhantoms (maxFrameSize payloadStride : ℕ) (calls : List TimedCall) : Prop where
  reported : ∀ x ∈ reportedJournals maxFrameSize payloadStride calls, 0 < x.2.receivedPackets
  counted :
    let stats := (FrameReassemblerManager.machine.state
      (FrameReassemblerManager.new maxFrameSize payloadStride) calls).stats
    stats.complete + stats.partialFrames =
      (reportedJournals maxFrameSize payloadStride calls).countP
        (fun x => 0 < x.2.receivedPackets)

variable {maxFrameSize payloadStride : ℕ} {calls : List TimedCall}

theorem FrameReassemblerV2.Reflects.received_pos_iff {frameId : UInt32} {count : UInt16}
    {fr : FrameReassemblerV2} {ps : List RxPacket}
    (h : fr.Reflects maxFrameSize payloadStride frameId count ps) :
    0 < fr.receivedPacketsCount ↔ ∃ p ∈ ps, Admissible maxFrameSize payloadStride count p := by
  rw [UInt16.lt_iff_toNat_lt, h.wellFormed.counter, UInt16.toNat_zero, List.count_pos_iff,
    List.mem_iff_getElem?]
  constructor
  · rintro ⟨i, hi⟩
    have hlt : i < count.toNat := by
      have hbound := (List.getElem?_eq_some_iff.mp hi).1
      rwa [h.wellFormed.bitmap, h.expected] at hbound
    rw [h.bits i hlt, Option.some_inj, storedPacket_isSome_iff] at hi
    obtain ⟨-, p, hp, hindex, hfits⟩ := hi
    exact ⟨p, hp, UInt16.lt_iff_toNat_lt.mpr (hindex.trans_lt hlt), hfits⟩
  · rintro ⟨p, hp, hrange, hfits⟩
    have hlt := UInt16.lt_iff_toNat_lt.mp hrange
    refine ⟨p.hdr.packetId.toNat, ?_⟩
    rw [h.bits _ hlt, storedPacket_isSome_iff.mpr ⟨hlt, p, hp, rfl, hfits⟩]

/-- The entry of a journal holds nothing exactly if all its packets were rejected. -/
theorem received_pos_iff_not_allRejected {j : List Arrival} {e : FrameEntry}
    (h : entryOf maxFrameSize payloadStride j = some e) :
    0 < e.reassembler.receivedPacketsCount ↔ ¬ AllRejected maxFrameSize payloadStride j := by
  cases j with
  | nil => simp at h
  | cons a as =>
    rw [(entryOf_reflects h).received_pos_iff]
    simp only [AllRejected, List.head?_cons, Option.mem_some_iff, forall_eq', not_forall, not_not,
      exists_prop, List.mem_map, exists_exists_and_eq_and]

theorem reports_iff_emits {m : FrameReassemblerManager} {c : TimedCall} {e : FrameEntry}
    (hwf : ∀ kv ∈ m.frames.entries, kv.2.reassembler.WellFormed) :
    (∃ state, (e, state) ∈ (m.callReports c).1) ↔ ∃ k, (k, e) ∈ m.frames.entries ∧ c.Emits e := by
  have hdue : ∀ verdict : FrameEntry → Option FrameState,
      (∃ state, (e, state) ∈ m.due verdict) ↔
        ∃ k, (k, e) ∈ m.frames.entries ∧ (verdict e).isSome = true := by
    intro verdict
    simp only [FrameReassemblerManager.due, List.mem_filterMap, Option.map_eq_some_iff,
      Prod.mk_inj]
    constructor
    · rintro ⟨state, ⟨k, e'⟩, hmem, state', hstate, rfl, rfl⟩
      exact ⟨k, hmem, by simp only at hstate; rw [hstate]; rfl⟩
    · rintro ⟨k, hmem, hsome⟩
      obtain ⟨state, hstate⟩ := Option.isSome_iff_exists.mp hsome
      exact ⟨state, (k, e), hmem, state, hstate, rfl, rfl⟩
  obtain ⟨now, call⟩ := c
  cases call with
  | pushPacket pkt drops => simp [FrameReassemblerManager.callReports, TimedCall.Emits]
  | flushAll => simp [FrameReassemblerManager.callReports, TimedCall.Emits]
  | pollFlush => simp [FrameReassemblerManager.callReports, TimedCall.Emits]
  | forceEmitAll drops =>
    refine (hdue (fun entry => some entry.forcedState)).trans (exists_congr (fun k => ?_))
    simp [TimedCall.Emits]
  | pollTimers drops =>
    refine (hdue (fun entry => entry.timerVerdict now)).trans
      (exists_congr (fun k => and_congr_right (fun hmem => ?_)))
    rw [FrameEntry.timerVerdict_isSome_iff (hwf _ hmem)]
    simp [TimedCall.Emits]

/-- Every report has been counted once. -/
theorem counted_eq_reported (maxFrameSize payloadStride : ℕ) (calls : List TimedCall) :
    let stats := (FrameReassemblerManager.machine.state
      (FrameReassemblerManager.new maxFrameSize payloadStride) calls).stats
    stats.complete + stats.partialFrames =
      (reportedJournals maxFrameSize payloadStride calls).length := by
  induction calls using List.reverseRecOn with
  | nil => rfl
  | append_singleton calls c ih =>
    simp only [OutputMachine.state_append, OutputMachine.state_cons, OutputMachine.state_nil,
      FrameReassemblerManager.machine_step]
    rw [reportedJournals_concat, List.length_append, ← ih, List.length_map,
      (FrameReassemblerManager.step_reports _ c).1, FrameReassemblerManager.foldl_count]
    set ds := ((FrameReassemblerManager.machine.state
      (FrameReassemblerManager.new maxFrameSize payloadStride) calls).callReports c).1
    have hsplit := ds.length_eq_countP_add_countP (fun d => d.2 = .partialFrame)
    simp only [decide_eq_true_eq, decide_not] at hsplit ⊢
    omega

/-- No run reports or counts an empty frame exactly if it emits no entry all of whose packets
were rejected. -/
theorem noPhantoms_iff (maxFrameSize payloadStride : ℕ) (calls : List TimedCall) :
    NoPhantoms maxFrameSize payloadStride calls ↔
      NeverEmitsRejected maxFrameSize payloadStride calls := by
  have hlive : ∀ pre k e, (k, e) ∈ (FrameReassemblerManager.machine.state
      (FrameReassemblerManager.new maxFrameSize payloadStride) pre).frames.entries →
      e.reassembler.WellFormed ∧ e.reassembler.currentFrameId = k ∧
        entryOf maxFrameSize payloadStride (journal maxFrameSize payloadStride k pre) = some e := by
    intro pre k e hmem
    have hfind := (OrderedMap.mem_entries_iff _ k e).mp hmem
    obtain ⟨count, ps, href⟩ := FrameReassemblerManager.reflects_of_find? hfind
    rw [FrameReassemblerManager.find?_eq_entryOf] at hfind
    exact ⟨href.wellFormed, href.id, hfind⟩
  have hreported : (∀ x ∈ reportedJournals maxFrameSize payloadStride calls,
      0 < x.2.receivedPackets) ↔ NeverEmitsRejected maxFrameSize payloadStride calls := by
    constructor
    · intro h p hp kv hkv hemits hrejected
      obtain ⟨k, e⟩ := kv
      obtain ⟨-, hid, he⟩ := hlive p.1 k e hkv
      obtain ⟨state, hd⟩ := (reports_iff_emits
        (fun kv hkv => (hlive p.1 kv.1 kv.2 hkv).1)).mpr ⟨k, hkv, hemits⟩
      have hpos := h _ (mem_reportedJournals_iff.mpr ⟨p, hp, _, hd, rfl⟩)
      exact (received_pos_iff_not_allRejected he).mp hpos hrejected
    · intro h x hx
      obtain ⟨p, hp, d, hd, rfl⟩ := mem_reportedJournals_iff.mp hx
      obtain ⟨k, hkv, hemits⟩ := (reports_iff_emits
        (fun kv hkv => (hlive p.1 kv.1 kv.2 hkv).1)).mp ⟨d.2, hd⟩
      obtain ⟨-, -, he⟩ := hlive p.1 k d.1 hkv
      exact (received_pos_iff_not_allRejected he).mpr (h p hp _ hkv hemits)
  rw [← hreported]
  refine ⟨NoPhantoms.reported, fun h => ⟨h, ?_⟩⟩
  have hall : (reportedJournals maxFrameSize payloadStride calls).countP
      (fun x => 0 < x.2.receivedPackets) =
        (reportedJournals maxFrameSize payloadStride calls).length :=
    List.countP_eq_length.mpr (fun x hx => decide_eq_true (h x hx))
  rw [hall]
  exact counted_eq_reported maxFrameSize payloadStride calls

/-- A packet that announces zero packets is rejected, and its frame reported as complete. -/
theorem not_noPhantoms :
    ¬ ∀ calls : List TimedCall,
      (∀ c ∈ calls, ∀ pkt drops, c.call = .pushPacket pkt drops → Receivable pkt) →
      calls.Pairwise (fun a b => a.now ≤ b.now) →
      NoPhantoms Receiver.maxFrameSize Receiver.payloadStride calls := by
  intro h
  have hflags : (entryOf Receiver.maxFrameSize Receiver.payloadStride
      (journal Receiver.maxFrameSize Receiver.payloadStride 1 (oneBytePushes 0 [0]))).map
        (fun e => (e.fullyReceived, e.reassembler.receivedPacketsCount)) = some (true, 0) := by
    decide
  obtain ⟨e, -, hreceived, hx⟩ := exists_reported hflags 0 0
  have hpos := (h _ (receivable_oneBytePushes 0 [0] 0) (by decide)).reported _ hx
  simp [FrameEntry.result, hreceived] at hpos

end HvFrame
