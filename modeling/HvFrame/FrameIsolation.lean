import HvFrame.FrameJournals

/-!
# Frames do not interfere

A packet of another frame neither moves the journal of `frameId` nor makes it report, so
deleting all of them changes neither the results of the frame nor its live entry.
-/

namespace HvFrame

/-- Calls that may concern `frameId`: every call except a `pushPacket` of another frame. -/
def TimedCall.concerns (frameId : UInt32) (c : TimedCall) : Bool :=
  match c.call with
  | .pushPacket pkt _ => pkt.hdr.frameId = frameId
  | _ => true

variable {maxFrameSize payloadStride : ℕ} {frameId : UInt32}

theorem journalStep_unconcerned (j : List Arrival) (c : TimedCall)
    (h : c.concerns frameId = false) :
    journalStep maxFrameSize payloadStride frameId j c = (j, []) := by
  obtain ⟨now, call⟩ := c
  cases call with
  | pushPacket pkt drops =>
    have hne : pkt.hdr.frameId ≠ frameId := by simpa [TimedCall.concerns] using h
    simp [journalStep, hne]
  | pollTimers drops => simp [TimedCall.concerns] at h
  | pollFlush => simp [TimedCall.concerns] at h
  | flushAll => simp [TimedCall.concerns] at h
  | forceEmitAll drops => simp [TimedCall.concerns] at h

namespace FrameReassemblerManager

/-- The results of a frame and its live entry are those of the run without the packets of
the other frames. -/
theorem results_independent_of_other_frames (maxFrameSize payloadStride : ℕ)
    (calls : List TimedCall) (frameId : UInt32) :
    reportsFor frameId (machine.outputs (new maxFrameSize payloadStride) calls) =
        reportsFor frameId (machine.outputs (new maxFrameSize payloadStride)
          (calls.filter (TimedCall.concerns frameId))) ∧
      (machine.state (new maxFrameSize payloadStride) calls).frames.find? frameId =
        (machine.state (new maxFrameSize payloadStride)
          (calls.filter (TimedCall.concerns frameId))).frames.find? frameId := by
  have hstart := tracks_new maxFrameSize payloadStride frameId
  obtain ⟨hfull, hfullOut⟩ := hstart.run calls
  obtain ⟨hown, hownOut⟩ := hstart.run (calls.filter (TimedCall.concerns frameId))
  obtain ⟨hstate, hout⟩ := (journalMachine maxFrameSize payloadStride frameId).run_filter
    (TimedCall.concerns frameId) journalStep_unconcerned [] calls
  rw [hfullOut, hownOut, hfull.live, hown.live, hstate, hout]
  exact ⟨rfl, rfl⟩

end FrameReassemblerManager

end HvFrame
