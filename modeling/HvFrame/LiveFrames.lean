import HvFrame.FrameDeadlines
import Mathlib.Data.List.Dedup

/-!
# How many frames are live

A frame that a poll of the timers leaves live began in the 8 s before the poll and had a packet
in the 30 ms before it. So the manager never holds more frames than ids have been handed over
since 30 ms before the last poll.
-/

namespace HvFrame

namespace ReceiverState

variable {clock : ℤ} {moves : List ReceiverMove} {frameId : UInt32} {s : ReceiverState}

/-- No live frame had timed out at the last poll. -/
def HeardSince (s : ReceiverState) : Prop :=
  ∀ k e, s.manager.frames.find? k = some e → s.lastTimer - e.lastUpdate ≤ frameIdleTimeout ∧
    s.lastTimer - e.firstPacketTime ≤ maxFrameLifetime

theorem Reached.sample_le (h : Reached s) {now : ℤ} {drops : ℕ}
    (hw : s.worker = .pollTimers now drops) : now ≤ s.clock := by
  obtain ⟨clock, moves, rfl⟩ := h
  refine ((usedInOrder_run clock moves).2.sampled now ?_).2
  rw [hw]
  rfl

theorem Reached.notLive (h : Reached s) (hw : s.worker = .start) (k : UInt32) :
    s.manager.frames.find? k = none := by
  obtain ⟨clock, moves, rfl⟩ := h
  rw [(manager_run clock moves).1, (usedInOrder_run clock moves).2.unstarted hw]
  rfl

theorem Reached.lastTimer_le_clock (h : Reached s) (hw : s.worker ≠ .start) :
    s.lastTimer ≤ s.clock := by
  obtain ⟨clock, moves, rfl⟩ := h
  exact ((usedInOrder_run clock moves).2.paced hw).2

/-- A poll keeps the frames that have not timed out. -/
theorem heardSince_poll (hreached : Reached s) {now : ℤ} {drops : ℕ}
    (hw : s.worker = .pollTimers now drops) : HeardSince s.workerStep.1 := by
  intro k e he
  rw [find?_of_poll hw, Option.filter_eq_some_iff] at he
  have hsample := hreached.sample_le hw
  have hlast : s.workerStep.1.lastTimer = now := by simp only [workerStep, hw]
  have hverdict := Option.isNone_iff_eq_none.mp he.2
  have htime : e.timedOut s.clock = false := by
    cases hfull : e.fullyReceived with
    | true => simp [FrameEntry.timerVerdict, hfull] at hverdict
    | false => simpa [FrameEntry.timerVerdict, hfull] using hverdict
  simp only [FrameEntry.timedOut, Bool.or_eq_false_iff, decide_eq_false_iff_not, not_lt] at htime
  rw [hlast]
  omega

theorem HeardSince.push (h : HeardSince s) (hlast : s.lastTimer ≤ s.clock) {pkt : RxPacket}
    {drops : ℕ} (hw : s.worker = .sampled pkt drops) : HeardSince s.workerStep.1 := by
  have hidle : (0 : ℤ) ≤ frameIdleTimeout := by decide
  have hlife : (0 : ℤ) ≤ maxFrameLifetime := by decide
  intro k e he
  simp only [workerStep, hw, FrameReassemblerManager.pushPacket_find?] at he ⊢
  split_ifs at he with hid
  · obtain rfl := Option.some.inj he
    refine ⟨?_, ?_⟩
    · simp only [FrameEntry.receive]
      omega
    · simp only [FrameEntry.receive]
      cases hold : s.manager.frames.find? pkt.hdr.frameId with
      | none =>
        simp only [Option.getD_none, FrameEntry.opened]
        omega
      | some e => exact (h _ e hold).2
  · exact h k e he

theorem HeardSince.step (h : HeardSince s) (hreached : Reached s) (a : ReceiverMove) :
    HeardSince (s.step a).1 := by
  by_cases ha : a = .worker
  · subst ha
    by_cases hpoll : ∃ now drops, s.worker = .pollTimers now drops
    · obtain ⟨now, drops, hw⟩ := hpoll
      exact heardSince_poll hreached hw
    · rcases s.workerStep_cases with ⟨pkt, drops, hw, -⟩ | ⟨now, drops, hw, -⟩ | ⟨-, hs⟩ |
        ⟨-, hs, -⟩
      · exact h.push (hreached.lastTimer_le_clock (by rw [hw]; simp)) hw
      · exact absurd ⟨now, drops, hw⟩ hpoll
      · intro k e he
        rw [ReceiverState.step, hs] at he
        cases he
      · intro k e he
        rw [ReceiverState.step, hs] at he
        have hstarted : s.worker ≠ .start := by
          intro hw
          rw [hreached.notLive hw] at he
          cases he
        rw [step_lastTimer hstarted (fun _ now drops hw => hpoll ⟨now, drops, hw⟩)]
        exact h k e he
  · intro k e he
    rw [(step_of_ne_worker ha s).2.1] at he
    rw [(step_outside ha s).2.2.1]
    exact h k e he

theorem heardSince_run (clock : ℤ) (moves : List ReceiverMove) :
    HeardSince (machine.state (init clock) moves) := by
  induction moves using List.reverseRecOn with
  | nil => exact fun k e he => by cases he
  | append_singleton moves a ih =>
    rw [OutputMachine.state_append]
    exact ih.step ⟨clock, moves, rfl⟩ a

def recentIds (since : ℤ) (calls : List TimedCall) : List UInt32 :=
  ((calls.filter (fun c => since - c.now ≤ frameIdleTimeout)).filterMap
    (fun c => c.call.pushed)).map (fun p => p.hdr.frameId)

theorem mem_recentIds {since : ℤ} {calls : List TimedCall} {a : Arrival}
    (ha : a ∈ arrivals frameId calls) (hsince : since - a.now ≤ frameIdleTimeout) :
    frameId ∈ recentIds since calls := by
  obtain ⟨hcall, rfl⟩ := mem_arrivals_iff.mp ha
  refine List.mem_map.mpr ⟨a.pkt, List.mem_filterMap.mpr ⟨_, List.mem_filter.mpr ⟨hcall, ?_⟩, rfl⟩,
    rfl⟩
  simpa using hsince

/-- In every interleaving the live frames had not timed out at the last poll of the timers, and
there are no more of them than ids handed over since 30 ms before it. -/
theorem live_frames_recent (clock : ℤ) (moves : List ReceiverMove) :
    let s := machine.state (init clock) moves
    HeardSince s ∧ s.manager.frames.size ≤
      (recentIds s.lastTimer (managerCalls clock moves)).dedup.length := by
  intro s
  have hheard : HeardSince s := heardSince_run clock moves
  refine ⟨hheard, OrderedMap.size_le (fun k hk => ?_)⟩
  obtain ⟨e, he⟩ := Option.isSome_iff_exists.mp hk
  obtain ⟨a, ha, hnow⟩ := List.mem_map.mp (times_of_live he).2
  rw [List.mem_dedup]
  refine mem_recentIds ha ?_
  rw [hnow]
  exact (hheard k e he).1

end ReceiverState

end HvFrame
