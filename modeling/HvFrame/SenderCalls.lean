import HvFrame.OutputMachines
import HvFrame.SendRetries

/-!
# The system calls of `sendFrame`

`waitWritable` calls `poll` until the socket is writable, and `sendFrame` calls `sendto` after it.
The loop on outcomes is what is left of this when the calls that lead to no outcome are dropped:
interrupted polls and wake-ups without `POLLOUT`.
-/

namespace HvFrame

/-- `eagain` is `EAGAIN` or `EWOULDBLOCK`. -/
inductive Errno where
  | eintr
  | eagain
  | other
  deriving DecidableEq, Repr

/-- What `poll` or `sendto` returns. Only after a `poll` does anyone look at `pollout`. -/
inductive CallResult where
  | failed (errno : Errno)
  | returned (pollout : Bool)
  deriving DecidableEq, Repr

/-- A result that takes the call no further: a packet is polled for or sent again. -/
def CallResult.setsBack : CallResult → Bool
  | .failed .eintr => true
  | .failed .eagain => true
  | .failed .other => false
  | .returned pollout => !pollout

/-- Where `sendFrame` is: before the `poll` for a packet, before its `sendto`, or at the end. -/
inductive SendPosition where
  | polling (pid : UInt16)
  | sending (pid : UInt16)
  | ended
  deriving DecidableEq, Repr

namespace UdpSender

def loopHead (frame : List UInt8) (pid : UInt16) : SendPosition :=
  if pid < packetCount frame then .polling pid else .ended

/-- One system call of `sendFrame`. Both loops treat `EINTR` and `EAGAIN` differently. -/
def callStep (frameId : UInt32) (frame : List UInt8) :
    SendPosition → CallResult → SendPosition × List (List UInt8)
  | .polling pid, .failed .eintr => (.polling pid, [])
  | .polling _, .failed _ => (.ended, [])
  | .polling pid, .returned pollout => (if pollout then .sending pid else .polling pid, [])
  | .sending pid, .failed .eagain => (loopHead frame (pid - 1 + 1), [])
  | .sending _, .failed _ => (.ended, [])
  | .sending pid, .returned _ =>
      (loopHead frame (pid + 1), [datagram frameId frame pid])
  | .ended, _ => (.ended, [])

def callMachine (frameId : UInt32) (frame : List UInt8) :
    OutputMachine SendPosition CallResult (List UInt8) := ⟨callStep frameId frame⟩

def outcome : SendPosition → CallResult → List SendOutcome
  | .polling _, .failed .eintr => []
  | .polling _, .failed _ => [.waitFailed]
  | .polling _, .returned _ => []
  | .sending _, .failed .eagain => [.retry]
  | .sending _, .failed _ => [.sendError]
  | .sending _, .returned _ => [.sent]
  | .ended, _ => []

def outcomes (frameId : UInt32) (frame : List UInt8) (results : List CallResult) :
    List SendOutcome :=
  (callMachine frameId frame).callsTo outcome (loopHead frame 0) results

variable {frameId : UInt32} {frame : List UInt8}

/-- From an iteration for packet `pid` on, the loop does what a run of it from `pid` does. -/
def AtPacket (frameId : UInt32) (frame : List UInt8) (seen : List SendOutcome)
    (sent : List (List UInt8)) (pid : UInt16) : Prop :=
  ∀ later, sendRun frameId frame (seen ++ later) 0 = (sendRun frameId frame later pid).map
    (fun r => ⟨sent ++ r.sent, seen ++ r.seen⟩)

/-- The loop on outcomes is where the calls are. -/
def Follows (frameId : UInt32) (frame : List UInt8) (seen : List SendOutcome)
    (sent : List (List UInt8)) : SendPosition → Prop
  | .polling pid => pid < packetCount frame ∧ AtPacket frameId frame seen sent pid
  | .sending pid => pid < packetCount frame ∧ AtPacket frameId frame seen sent pid
  | .ended => ∀ later, sendRun frameId frame (seen ++ later) 0 = some ⟨sent, seen⟩

theorem AtPacket.follows {seen : List SendOutcome} {sent : List (List UInt8)} {pid : UInt16}
    (h : AtPacket frameId frame seen sent pid) :
    Follows frameId frame seen sent (loopHead frame pid) := by
  by_cases hpid : pid < packetCount frame
  · rw [loopHead, if_pos hpid]
    exact ⟨hpid, h⟩
  · rw [loopHead, if_neg hpid]
    intro later
    have hend : sendRun frameId frame later pid = some ⟨[], []⟩ := by
      cases later <;> simp [sendRun, hpid]
    rw [h later, hend]
    simp

/-- Each call keeps the two loops together. -/
theorem Follows.step {seen : List SendOutcome} {sent : List (List UInt8)} {t : SendPosition}
    (h : Follows frameId frame seen sent t) (result : CallResult) :
    Follows frameId frame (seen ++ outcome t result) (sent ++ (callStep frameId frame t result).2)
      (callStep frameId frame t result).1 := by
  cases t with
  | polling pid =>
    obtain ⟨hpid, hat⟩ := h
    have hfailed : ∀ later, sendRun frameId frame ((seen ++ [.waitFailed]) ++ later) 0 =
        some ⟨sent ++ [], seen ++ [.waitFailed]⟩ := by
      intro later
      rw [List.append_assoc, hat]
      simp [sendRun, hpid]
    cases result with
    | failed errno =>
      cases errno with
      | eintr => simpa [callStep, outcome, Follows] using ⟨hpid, hat⟩
      | eagain => exact hfailed
      | other => exact hfailed
    | returned pollout => cases pollout <;> simpa [callStep, outcome, Follows] using ⟨hpid, hat⟩
  | sending pid =>
    obtain ⟨hpid, hat⟩ := h
    have hfailed : ∀ later, sendRun frameId frame ((seen ++ [.sendError]) ++ later) 0 =
        some ⟨sent ++ [], seen ++ [.sendError]⟩ := by
      intro later
      rw [List.append_assoc, hat]
      simp [sendRun, hpid]
    cases result with
    | failed errno =>
      cases errno with
      | eintr => exact hfailed
      | eagain =>
        refine AtPacket.follows (fun later => ?_)
        rw [List.append_assoc, hat]
        simp [outcome, callStep, sendRun, hpid, Option.map_map, Function.comp_def]
      | other => exact hfailed
    | returned pollout =>
      refine AtPacket.follows (fun later => ?_)
      rw [List.append_assoc, hat]
      simp [outcome, callStep, sendRun, hpid, Option.map_map, Function.comp_def]
  | ended =>
    intro later
    simpa [outcome, callStep] using h later

theorem follows_run (frameId : UInt32) (frame : List UInt8) (results : List CallResult) :
    Follows frameId frame (outcomes frameId frame results)
      ((callMachine frameId frame).outputs (loopHead frame 0) results)
      ((callMachine frameId frame).state (loopHead frame 0) results) := by
  have hstart : AtPacket frameId frame [] [] 0 := fun later => by simp
  exact (callMachine frameId frame).callsTo_invariant outcome hstart.follows
    (fun _ _ _ result h => h.step result) results

/-- The calls that are left when nothing sets them back. -/
def callsLeft (frame : List UInt8) : SendPosition → ℕ
  | .polling pid => 2 * ((packetCount frame).toNat - pid.toNat)
  | .sending pid => 2 * ((packetCount frame).toNat - pid.toNat) - 1
  | .ended => 0

theorem callsLeft_loopHead (frame : List UInt8) (pid : UInt16) :
    callsLeft frame (loopHead frame pid) = 2 * ((packetCount frame).toNat - pid.toNat) := by
  by_cases hpid : pid < packetCount frame
  · rw [loopHead, if_pos hpid, callsLeft]
  · rw [loopHead, if_neg hpid, callsLeft]
    have hle := UInt16.le_iff_toNat_le.mp (UInt16.not_lt.mp hpid)
    omega

theorem Follows.callsLeft_pos {seen : List SendOutcome} {sent : List (List UInt8)}
    {t : SendPosition} (h : Follows frameId frame seen sent t) (ht : t ≠ .ended) :
    0 < callsLeft frame t := by
  cases t with
  | polling pid =>
    have hlt := UInt16.lt_iff_toNat_lt.mp h.1
    rw [callsLeft]
    omega
  | sending pid =>
    have hlt := UInt16.lt_iff_toNat_lt.mp h.1
    rw [callsLeft]
    omega
  | ended => exact absurd rfl ht

theorem Follows.callsLeft_step {seen : List SendOutcome} {sent : List (List UInt8)}
    {t : SendPosition} (h : Follows frameId frame seen sent t) (result : CallResult)
    (ht : (callStep frameId frame t result).1 ≠ .ended) :
    callsLeft frame (callStep frameId frame t result).1 + 1 ≤
      callsLeft frame t + if result.setsBack then 2 else 0 := by
  cases t with
  | polling pid =>
    have hlt := UInt16.lt_iff_toNat_lt.mp h.1
    cases result with
    | failed errno =>
      cases errno with
      | eintr => simp [callStep, CallResult.setsBack]
      | eagain => exact absurd rfl ht
      | other => exact absurd rfl ht
    | returned pollout =>
      cases pollout with
      | false => simp [callStep, CallResult.setsBack]
      | true =>
        simp only [callStep, callsLeft, CallResult.setsBack, if_true]
        omega
  | sending pid =>
    have hlt := UInt16.lt_iff_toNat_lt.mp h.1
    cases result with
    | failed errno =>
      cases errno with
      | eintr => exact absurd rfl ht
      | eagain =>
        rw [callStep, callsLeft_loopHead, UInt16.sub_add_cancel]
        simp only [callsLeft, CallResult.setsBack, if_true]
        omega
      | other => exact absurd rfl ht
    | returned pollout =>
      rw [callStep, callsLeft_loopHead, succ_toNat h.1]
      simp only [callsLeft]
      omega
  | ended => exact absurd rfl ht

/-- Two calls for each packet and two for each setback are enough. -/
theorem length_of_unended {results : List CallResult}
    (h : (callMachine frameId frame).state (loopHead frame 0) results ≠ .ended) :
    callsLeft frame ((callMachine frameId frame).state (loopHead frame 0) results) +
      results.length ≤ 2 * (packetCount frame).toNat + 2 * results.countP CallResult.setsBack := by
  induction results using List.reverseRecOn with
  | nil => simp [callsLeft_loopHead]
  | append_singleton results result ih =>
    have hfollows := follows_run frameId frame results
    rw [OutputMachine.state_append] at h ⊢
    generalize (callMachine frameId frame).state (loopHead frame 0) results = t at h ih hfollows ⊢
    have hopen : t ≠ .ended := by
      rintro rfl
      exact h rfl
    have hstep := hfollows.callsLeft_step result h
    have hprev := ih hopen
    change callsLeft frame (callStep frameId frame t result).1 + _ ≤ _
    rw [List.length_append, List.length_singleton, List.countP_append, List.countP_singleton]
    split_ifs at hstep ⊢ <;> omega

theorem sendLoop_waitFailed (seen : List SendOutcome) (pid : UInt16) :
    sendLoop frameId frame (seen ++ [.waitFailed]) pid = sendLoop frameId frame seen pid := by
  induction seen generalizing pid with
  | nil => simp [sendLoop]
  | cons o seen ih => cases o <;> simp [sendLoop, ih]

theorem Follows.sendLoop_eq {seen : List SendOutcome} {sent : List (List UInt8)} {t : SendPosition}
    (h : Follows frameId frame seen sent t) : sendLoop frameId frame seen 0 = sent := by
  have hopen : ∀ pid, pid < packetCount frame → AtPacket frameId frame seen sent pid →
      sendLoop frameId frame seen 0 = sent := by
    intro pid hpid hat
    have hrun : sendRun frameId frame (seen ++ [.waitFailed]) 0 =
        some ⟨sent, seen ++ [.waitFailed]⟩ := by
      rw [hat]
      simp [sendRun, hpid]
    rw [← sendLoop_waitFailed]
    exact (sendRun_spec hrun (Nat.zero_le _)).1
  cases t with
  | polling pid => exact hopen pid h.1 h.2
  | sending pid => exact hopen pid h.1 h.2
  | ended =>
    have hrun := h []
    rw [List.append_nil] at hrun
    exact (sendRun_spec hrun (Nat.zero_le _)).1

/-- Whatever `poll` and `sendto` return, what goes out is what the loop on outcomes sends. When
the call has ended it has sent the first packets in order, and all of them exactly if no `poll`
failed for another reason than a signal and no `sendto` for another reason than a full buffer. A
call that has not ended has made fewer than two calls for each packet and each setback. -/
theorem sendFrame_calls (s : UdpSender) (frame : List UInt8) (results : List CallResult) :
    let M := callMachine (s.frameId + 1) frame
    let seen := outcomes (s.frameId + 1) frame results
    (s.sendFrame frame seen).2 = M.outputs (loopHead frame 0) results ∧
      (M.state (loopHead frame 0) results = .ended →
        SendsInOrder (s.frameId + 1) frame ⟨M.outputs (loopHead frame 0) results, seen⟩) ∧
      (M.state (loopHead frame 0) results ≠ .ended →
        results.length <
          2 * (packetCount frame).toNat + 2 * results.countP CallResult.setsBack) := by
  intro M seen
  have hfollows := follows_run (s.frameId + 1) frame results
  refine ⟨hfollows.sendLoop_eq, fun hended => ?_, fun hopen => ?_⟩
  · rw [hended] at hfollows
    have hrun := hfollows []
    rw [List.append_nil] at hrun
    exact sendsInOrder_sendRun hrun
  · have hleft := hfollows.callsLeft_pos hopen
    have hlength := length_of_unended hopen
    omega

end UdpSender

end HvFrame
