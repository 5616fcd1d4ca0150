import HvFrame.FrameDelivery

/-!
# How often a frame is reported

The manager keeps no memory of a frame it has emitted, so a datagram that comes after the
report opens a new entry under the same id. Every report after the first is paid for by such
a late datagram.
-/

namespace HvFrame

/-- The frames of one `UdpSender` in the order of its `sendFrame` calls: the id of each and
the datagrams that went out for it. -/
def sendFrames : UdpSender → List (List UInt8 × List SendOutcome) →
    List (UInt32 × List (List UInt8))
  | _, [] => []
  | s, (frame, outcomes) :: rest =>
      let sent := s.sendFrame frame outcomes
      (sent.1.frameId, sent.2) :: sendFrames sent.1 rest

/-- All packets come from one sender whose frames carry distinct ids; any of its datagrams
may be lost, repeated, delayed and reordered, and polls come at any time. -/
structure OneSenderRun (frames : List (List UInt8 × List SendOutcome)) (calls : List TimedCall) :
    Prop where
  distinct : ((sendFrames .new frames).map Prod.fst).Nodup
  kinds : ∀ c ∈ calls, c.IsPush ∨ c.IsPoll
  clock : calls.Pairwise (fun a b => a.now ≤ b.now)
  sent : ∀ c ∈ calls, ∀ pkt drops, c.call = .pushPacket pkt drops →
    ∃ sent ∈ sendFrames .new frames, pkt ∈ receivedPackets sent.2

def runReports (maxFrameSize payloadStride : ℕ) (frameId : UInt32) (calls : List TimedCall) :
    List FrameResult :=
  reportsFor frameId (FrameReassemblerManager.machine.outputs
    (FrameReassemblerManager.new maxFrameSize payloadStride) calls)

/-- How many packets of `frameId` are pushed after its first report. -/
def latePushes (maxFrameSize payloadStride : ℕ) (frameId : UInt32) (calls : List TimedCall) : ℕ :=
  (positions calls).countP (fun x => (x.2.arrival frameId).isSome &&
    !(runReports maxFrameSize payloadStride frameId x.1).isEmpty)

variable {maxFrameSize payloadStride : ℕ} {frameId : UInt32} {calls : List TimedCall}

theorem runReports_concat (maxFrameSize payloadStride : ℕ) (frameId : UInt32)
    (calls : List TimedCall) (c : TimedCall) :
    runReports maxFrameSize payloadStride frameId (calls ++ [c]) =
      runReports maxFrameSize payloadStride frameId calls ++
        (journalStep maxFrameSize payloadStride frameId
          (journal maxFrameSize payloadStride frameId calls) c).2 := by
  have hstart := FrameReassemblerManager.tracks_new maxFrameSize payloadStride frameId
  have hrun := hstart.run calls
  have hrun' := hstart.run (calls ++ [c])
  rw [runReports, hrun'.2, runReports, hrun.2, OutputMachine.outputs_append]
  simp [journal]

theorem latePushes_concat (maxFrameSize payloadStride : ℕ) (frameId : UInt32)
    (calls : List TimedCall) (c : TimedCall) :
    latePushes maxFrameSize payloadStride frameId (calls ++ [c]) =
      latePushes maxFrameSize payloadStride frameId calls +
        if (c.arrival frameId).isSome = true ∧
          runReports maxFrameSize payloadStride frameId calls ≠ [] then 1 else 0 := by
  rw [latePushes, positions_concat, List.countP_append, List.countP_singleton, ← latePushes]
  simp

/-- A live entry of a reported frame is itself paid for by a late packet. -/
theorem reports_add_live_le (maxFrameSize payloadStride : ℕ) (frameId : UInt32)
    (calls : List TimedCall) :
    (runReports maxFrameSize payloadStride frameId calls).length +
        (if journal maxFrameSize payloadStride frameId calls = [] then 0 else 1) ≤
      1 + latePushes maxFrameSize payloadStride frameId calls := by
  induction calls using List.reverseRecOn with
  | nil => simp [runReports, journal, reportsFor]
  | append_singleton calls c ih =>
    rw [runReports_concat, journal_concat, latePushes_concat, List.length_append]
    rcases journalStep_cases (journal maxFrameSize payloadStride frameId calls) c with
      ⟨a, ha, he⟩ | ⟨hnone, he | he | ⟨e, state, drops, hlive, he⟩⟩
    · rw [he, ha]
      by_cases hfirst : runReports maxFrameSize payloadStride frameId calls = []
      · simp [hfirst]
      · simp only [Option.isSome_some, hfirst, ne_eq, not_false_eq_true, and_self, if_true,
          List.append_eq_nil_iff, List.cons_ne_nil, and_false, if_false, List.length_nil]
        split_ifs at ih <;> omega
    · rw [he, hnone]
      simpa using ih
    · -- the entry is dropped unreported
      rw [he, hnone]
      simp only [if_true, List.length_nil, Nat.add_zero]
      exact (Nat.le_add_right _ _).trans (ih.trans (by omega))
    · have hne : journal maxFrameSize payloadStride frameId calls ≠ [] := by
        intro hnil
        simp [hnil] at hlive
      rw [he, hnone]
      simp only [hne, if_false, if_true, List.length_singleton] at ih ⊢
      simpa using ih

/-- `onFrameDone` is called at most once for a frame, plus once for every packet of it that is
pushed after its first report. -/
theorem runReports_length_le (maxFrameSize payloadStride : ℕ) (frameId : UInt32)
    (calls : List TimedCall) :
    (runReports maxFrameSize payloadStride frameId calls).length ≤
      1 + latePushes maxFrameSize payloadStride frameId calls :=
  le_trans (Nat.le_add_right _ _) (reports_add_live_le maxFrameSize payloadStride frameId calls)

def duplicateRun : List TimedCall :=
  [⟨0, .pushPacket (UdpSender.packet 1 [7] 0) 0⟩, ⟨0, .pollTimers 0⟩,
    ⟨1000000, .pushPacket (UdpSender.packet 1 [7] 0) 0⟩, ⟨1000000, .pollTimers 0⟩]

theorem oneSenderRun_duplicateRun : OneSenderRun [([7], [.sent])] duplicateRun := by
  have hpacket : UdpSender.packet 1 [7] 0 ∈ receivedPackets (UdpSender.frameDatagrams 1 [7]) :=
    mem_receivedPackets_frameDatagrams.mpr ⟨0, by decide, rfl⟩
  refine ⟨by decide, ?_, by decide, ?_⟩
  · intro c hc
    simp only [duplicateRun, List.mem_cons, List.not_mem_nil, or_false] at hc
    rcases hc with rfl | rfl | rfl | rfl
    · exact Or.inl ⟨_, _, rfl⟩
    · exact Or.inr ⟨_, rfl⟩
    · exact Or.inl ⟨_, _, rfl⟩
    · exact Or.inr ⟨_, rfl⟩
  · intro c hc pkt drops hcall
    refine ⟨_, List.mem_cons_self, ?_⟩
    simp only [duplicateRun, List.mem_cons, List.not_mem_nil, or_false] at hc
    rcases hc with rfl | rfl | rfl | rfl <;> cases hcall <;> exact hpacket

/-- A duplicate after the emission is reported as a second frame. -/
theorem not_reported_at_most_once :
    ¬ ∀ frames calls, OneSenderRun frames calls → ∀ frameId,
      (runReports Receiver.maxFrameSize Receiver.payloadStride frameId calls).length ≤ 1 := by
  intro h
  have htwo : (runReports Receiver.maxFrameSize Receiver.payloadStride 1 duplicateRun).length =
      2 := by
    decide
  have hle := h _ _ oneSenderRun_duplicateRun 1
  omega

end HvFrame
