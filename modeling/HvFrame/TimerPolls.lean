import HvFrame.FrameJournals
import Mathlib.Data.List.Forall2

/-!
# What a timer poll removes

In every reachable state `pollTimers` reports and removes the entries that are due, in key
order, and leaves the others as they are. At the same clock reading nothing is due any more,
for `pollTimers` as for `pollFlush`.
-/

namespace HvFrame

def FrameReassemblerV2.AllReceived (fr : FrameReassemblerV2) : Prop :=
  ∀ i < fr.expectedPacketCount.toNat, fr.packetReceived[i]? = some true

instance (fr : FrameReassemblerV2) : Decidable fr.AllReceived :=
  inferInstanceAs (Decidable (∀ i < fr.expectedPacketCount.toNat, _))

namespace FrameEntry

variable {entry : FrameEntry} {now : ℤ}

def IsDue (entry : FrameEntry) (now : ℤ) : Prop :=
  entry.reassembler.AllReceived ∨ maxFrameLifetime < now - entry.firstPacketTime ∨
    frameIdleTimeout < now - entry.lastUpdate

instance (entry : FrameEntry) (now : ℤ) : Decidable (entry.IsDue now) :=
  inferInstanceAs (Decidable (_ ∨ _ ∨ _))

theorem fullyReceived_iff_allReceived (wf : entry.reassembler.WellFormed) :
    entry.fullyReceived = true ↔ entry.reassembler.AllReceived := by
  rw [fullyReceived, decide_eq_true_iff]
  exact wf.received_eq_iff

theorem timerVerdict_isSome_iff (wf : entry.reassembler.WellFormed) :
    (entry.timerVerdict now).isSome = true ↔ entry.IsDue now := by
  rw [IsDue, ← fullyReceived_iff_allReceived wf, timerVerdict]
  cases entry.fullyReceived with
  | true => simp
  | false => cases htime : entry.timedOut now <;> simpa [timedOut] using htime

/-- An entry that no poll is due for is not written by `pollFlush` either. -/
theorem flushWrite_of_not_due (wf : entry.reassembler.WellFormed) (h : ¬ entry.IsDue now) :
    entry.flushWrite now = none := by
  simp only [IsDue, not_or] at h
  obtain ⟨hfull, hage, -⟩ := h
  rw [← fullyReceived_iff_allReceived wf, fullyReceived, decide_eq_true_iff] at hfull
  have hcomplete : entry.reassembler.isFrameComplete = false := by
    simp [FrameReassemblerV2.isFrameComplete, hfull]
  simp [flushWrite, flushVerdict, hcomplete, hage]

end FrameEntry

/-- The result carries the id, the counters, the size and the bytes of the entry at its key. -/
structure ReportsEntry (kv : UInt32 × FrameEntry) (r : FrameResult) : Prop where
  frameId : r.frameId = kv.1
  expectedPackets : r.expectedPackets = kv.2.reassembler.expectedPacketCount
  receivedPackets : r.receivedPackets = kv.2.reassembler.receivedPacketsCount
  frameSize : r.frameSize = kv.2.reassembler.frameSize
  frameData : r.frameData = kv.2.reassembler.frameBuffer

namespace FrameReassemblerManager

def dueEntries (m : FrameReassemblerManager) (now : ℤ) : List (UInt32 × FrameEntry) :=
  m.frames.entries.filter (fun kv => kv.2.IsDue now)

/-- `pollTimers` takes out exactly what is due, and a second look finds nothing. -/
structure PollsWhatIsDue (m : FrameReassemblerManager) (drops : ℕ) (now : ℤ) : Prop where
  kept : (m.pollTimers drops now).1.frames.entries =
    m.frames.entries.filter (fun kv => ¬ kv.2.IsDue now)
  reported : ∃ rs : List FrameResult, (m.pollTimers drops now).2 = rs.map .onFrameDone ∧
    List.Forall₂ ReportsEntry (m.dueEntries now) rs ∧
    rs.Pairwise (fun r r' => r.frameId < r'.frameId)
  total : (m.pollTimers drops now).1.stats.total = m.stats.total + (m.dueEntries now).length
  secondPoll : ∀ drops', (m.pollTimers drops now).1.pollTimers drops' now =
    ((m.pollTimers drops now).1, [])
  thenFlush : (m.pollTimers drops now).1.pollFlush now = ((m.pollTimers drops now).1, [])

theorem reportsEntry_of_due {es : List (UInt32 × FrameEntry)} (drops : ℕ) (now : ℤ)
    (hwf : ∀ kv ∈ es, kv.2.reassembler.WellFormed)
    (hid : ∀ kv ∈ es, kv.2.reassembler.currentFrameId = kv.1) :
    List.Forall₂ ReportsEntry (es.filter (fun kv => kv.2.IsDue now))
      ((es.filterMap (fun kv => (kv.2.timerVerdict now).map (fun state => (kv.2, state)))).map
        (fun d => d.1.result d.2 drops)) := by
  induction es with
  | nil => exact List.Forall₂.nil
  | cons kv es ih =>
    have hrest := ih (fun kv' h => hwf kv' (List.mem_cons_of_mem _ h))
      (fun kv' h => hid kv' (List.mem_cons_of_mem _ h))
    have hdue : (kv.2.timerVerdict now).isSome = true ↔ kv.2.IsDue now :=
      FrameEntry.timerVerdict_isSome_iff (hwf kv List.mem_cons_self)
    cases hverdict : kv.2.timerVerdict now with
    | none =>
      have hnot : ¬ kv.2.IsDue now := by
        rw [← hdue, hverdict]
        simp
      simpa [hnot, hverdict] using hrest
    | some state =>
      have hyes : kv.2.IsDue now := by
        rw [← hdue, hverdict]
        rfl
      rw [List.filter_cons_of_pos (by simpa using hyes), List.filterMap_cons, hverdict]
      exact List.Forall₂.cons ⟨hid kv List.mem_cons_self, rfl, rfl, rfl, rfl⟩ hrest

theorem frameIds_of_reportsEntry {es : List (UInt32 × FrameEntry)} {rs : List FrameResult}
    (h : List.Forall₂ ReportsEntry es rs) : rs.map FrameResult.frameId = es.map Prod.fst := by
  induction h with
  | nil => rfl
  | cons hhead _ ih => rw [List.map_cons, List.map_cons, ih, hhead.frameId]

/-- In every reachable state, at every clock reading, `pollTimers` removes exactly what is due. -/
theorem pollTimers_exact (maxFrameSize payloadStride : ℕ) (calls : List TimedCall) (drops : ℕ)
    (now : ℤ) :
    PollsWhatIsDue (machine.state (new maxFrameSize payloadStride) calls) drops now := by
  set m := machine.state (new maxFrameSize payloadStride) calls with hm
  have hlive : ∀ kv ∈ m.frames.entries, m.frames.find? kv.1 = some kv.2 :=
    fun kv h => (OrderedMap.mem_entries_iff _ _ _).mp h
  have hid : ∀ kv ∈ m.frames.entries, kv.2.reassembler.currentFrameId = kv.1 :=
    fun kv h => currentFrameId_of_find? (hlive kv h)
  have hwf : ∀ kv ∈ m.frames.entries, kv.2.reassembler.WellFormed := by
    intro kv h
    obtain ⟨count, ps, href⟩ := reflects_of_find? (hlive kv h)
    exact href.wellFormed
  have hkept : (m.pollTimers drops now).1.frames.entries =
      m.frames.entries.filter (fun kv => ¬ kv.2.IsDue now) := by
    rw [pollTimers, emitLoop_entries]
    refine List.filter_congr (fun kv h => ?_)
    rw [Bool.eq_iff_iff, decide_eq_true_iff, ← FrameEntry.timerVerdict_isSome_iff (hwf kv h)]
    simp
  have hreported := reportsEntry_of_due drops now hwf hid
  -- what is left has passed every test of the first look
  have hleft : ∀ kv ∈ (m.pollTimers drops now).1.frames.entries,
      kv.2.reassembler.WellFormed ∧ ¬ kv.2.IsDue now := by
    intro kv h
    rw [hkept] at h
    exact ⟨hwf kv (List.mem_of_mem_filter h), by simpa using List.of_mem_filter h⟩
  obtain ⟨hstats, houts⟩ := m.emitLoop_reports (fun entry => entry.timerVerdict now) drops
  refine ⟨hkept, ⟨_, ?_, hreported, ?_⟩, ?_, ?_, ?_⟩
  · rw [pollTimers, houts, List.map_map]
    rfl
  · rw [← List.pairwise_map, frameIds_of_reportsEntry hreported, List.pairwise_map]
    exact m.frames.sorted.filter _
  · have hlength := hreported.length_eq
    rw [List.length_map] at hlength
    rw [pollTimers, hstats, foldl_count, dueEntries, hlength]
    rfl
  · intro drops'
    refine emitLoop_quiet (fun kv h => ?_) drops'
    obtain ⟨hwf', hnot⟩ := hleft kv h
    rw [← Option.not_isSome_iff_eq_none, FrameEntry.timerVerdict_isSome_iff hwf']
    exact hnot
  · exact pollFlush_quiet (fun kv h =>
      FrameEntry.flushWrite_of_not_due (hleft kv h).1 (hleft kv h).2)

end FrameReassemblerManager

end HvFrame
