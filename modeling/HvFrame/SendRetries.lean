import HvFrame.Fragmentation
import Mathlib.Data.Set.Finite.Lattice
import Mathlib.Order.Interval.Finset.Nat

/-!
# Retries of the send loop

A retry decrements the 16-bit `pid` that the loop then increments. Runs of the loop that return
send an initial part of the packets, each once and in order, and a run returns once enough
outcomes are no retries.
-/

namespace HvFrame

namespace UdpSender

/-- What a loop of `sendFrame` that has returned sent, and the outcomes it saw. -/
structure SendRun where
  sent : List (List UInt8)
  seen : List SendOutcome
  deriving DecidableEq, Repr

/-- `sendLoop` with its return: `none` as long as the loop waits for another outcome. -/
def sendRun (frameId : UInt32) (frame : List UInt8) :
    List SendOutcome → UInt16 → Option SendRun
  | [], pid => if pid < packetCount frame then none else some ⟨[], []⟩
  | outcome :: outcomes, pid =>
      if pid < packetCount frame then
        match outcome with
        | .waitFailed => some ⟨[], [.waitFailed]⟩
        | .sendError => some ⟨[], [.sendError]⟩
        | .retry => (sendRun frameId frame outcomes (pid - 1 + 1)).map (fun r =>
            ⟨r.sent, .retry :: r.seen⟩)
        | .sent => (sendRun frameId frame outcomes (pid + 1)).map (fun r =>
            ⟨datagram frameId frame pid :: r.sent, .sent :: r.seen⟩)
      else some ⟨[], []⟩

/-- `d` is the datagram of index `i`: its header says so, and it carries the bytes of that
index. -/
structure IsFragment (frameId : UInt32) (frame : List UInt8) (i : ℕ) (d : List UInt8) : Prop where
  frameId : (UdpPacketHeader.read d).frameId = frameId
  packetId : (UdpPacketHeader.read d).packetId.toNat = i
  packetCount : (UdpPacketHeader.read d).packetCount = packetCount frame
  payload : payloadOf d =
    (frame.take (min ((i + 1) * maxUdpPayload) frame.length)).drop (i * maxUdpPayload)

/-- The first packets of the frame went out, each once and in order, and all of them exactly
if nothing failed. -/
structure SendsInOrder (frameId : UInt32) (frame : List UInt8) (r : SendRun) : Prop where
  announced : r.sent.length ≤ (packetCount frame).toNat
  fragments : ∀ i d, r.sent[i]? = some d → IsFragment frameId frame i d
  all_iff : r.sent.length = (packetCount frame).toNat ↔
    .waitFailed ∉ r.seen ∧ .sendError ∉ r.seen

variable {frameId : UInt32} {frame : List UInt8} {outcomes : List SendOutcome} {pid : UInt16}
variable {r : SendRun}

theorem isFragment_datagram (h : pid < packetCount frame) (frameId : UInt32) :
    IsFragment frameId frame pid.toNat (datagram frameId frame pid) where
  frameId := by rw [read_datagram]; rfl
  packetId := by rw [read_datagram]; rfl
  packetCount := by rw [read_datagram]; rfl
  payload := by
    have hoffset := offset_lt h
    rw [payloadOf_datagram, slice, List.drop_take, packetSize, Nat.add_mul]
    congr 1
    omega

/-- What a loop that returns has sent is what `sendLoop` sends, and it is everything exactly if
no outcome was a failure. -/
theorem sendRun_spec (h : sendRun frameId frame outcomes pid = some r)
    (hle : pid.toNat ≤ (packetCount frame).toNat) :
    sendLoop frameId frame outcomes pid = r.sent ∧
      (pid.toNat + r.sent.length = (packetCount frame).toNat ↔
        .waitFailed ∉ r.seen ∧ .sendError ∉ r.seen) := by
  have hall : ¬ pid < packetCount frame → pid.toNat = (packetCount frame).toNat := fun hpid =>
    le_antisymm hle (UInt16.le_iff_toNat_le.mp (UInt16.not_lt.mp hpid))
  induction outcomes generalizing pid r with
  | nil =>
    simp only [sendRun] at h
    split_ifs at h with hpid
    obtain rfl := Option.some.inj h
    exact ⟨rfl, by simpa using hall hpid⟩
  | cons outcome outcomes ih =>
    simp only [sendRun] at h
    split_ifs at h with hpid
    · have hlt : pid.toNat < (packetCount frame).toNat := UInt16.lt_iff_toNat_lt.mp hpid
      cases outcome with
      | waitFailed =>
        obtain rfl := Option.some.inj h
        refine ⟨by rw [sendLoop, if_pos hpid], ?_⟩
        simp [hlt.ne]
      | sendError =>
        obtain rfl := Option.some.inj h
        refine ⟨by rw [sendLoop, if_pos hpid], ?_⟩
        simp [hlt.ne]
      | retry =>
        obtain ⟨r', hr', rfl⟩ := Option.map_eq_some_iff.mp h
        rw [UInt16.sub_add_cancel] at hr'
        obtain ⟨hsent, hiff⟩ := ih hr' hle hall
        refine ⟨by rw [sendLoop, if_pos hpid, UInt16.sub_add_cancel, hsent], ?_⟩
        simpa using hiff
      | sent =>
        obtain ⟨r', hr', rfl⟩ := Option.map_eq_some_iff.mp h
        have hsucc := succ_toNat hpid
        have hle' : (pid + 1).toNat ≤ (packetCount frame).toNat := by omega
        obtain ⟨hsent, hiff⟩ := ih hr' hle' (fun hpid' =>
          le_antisymm hle' (UInt16.le_iff_toNat_le.mp (UInt16.not_lt.mp hpid')))
        refine ⟨by rw [sendLoop, if_pos hpid, hsent], ?_⟩
        rw [hsucc] at hiff
        simpa [Nat.add_assoc, Nat.add_comm 1] using hiff
    · obtain rfl := Option.some.inj h
      refine ⟨by cases outcome <;> simp [sendLoop, hpid], by simpa using hall hpid⟩

theorem sendsInOrder_sendRun (h : sendRun frameId frame outcomes 0 = some r) :
    SendsInOrder frameId frame r := by
  obtain ⟨hsent, hiff⟩ := sendRun_spec h (Nat.zero_le _)
  have hpre := sendLoop_isPrefix frameId frame outcomes 0
  rw [hsent, UInt16.toNat_zero, List.drop_zero] at hpre
  have hlength := hpre.length_le
  rw [frameDatagrams, List.length_map, List.length_range] at hlength
  refine ⟨hlength, fun i d hd => ?_, by simpa using hiff⟩
  have hi : i < (packetCount frame).toNat :=
    (List.getElem?_eq_some_iff.mp hd).1.trans_le hlength
  have hfragment := isFragment_datagram (index_lt hi) frameId
  have hd' : (frameDatagrams frameId frame)[i]? = some d := by
    obtain ⟨rest, hrest⟩ := hpre
    rw [← hrest, List.getElem?_append_left (List.getElem?_eq_some_iff.mp hd).1, hd]
  have hdatagram : datagram frameId frame (UInt16.ofNat i) = d := by
    simpa [frameDatagrams, hi] using hd'
  rwa [index_toNat hi, hdatagram] at hfragment

/-- A loop that still waits has seen fewer outcomes than packets are left and retries were
made. -/
theorem length_lt_of_waiting (h : sendRun frameId frame outcomes pid = none) :
    outcomes.length + pid.toNat < (packetCount frame).toNat + outcomes.count .retry := by
  induction outcomes generalizing pid with
  | nil =>
    simp only [sendRun] at h
    split_ifs at h with hpid
    simpa [UInt16.lt_iff_toNat_lt] using hpid
  | cons outcome outcomes ih =>
    simp only [sendRun] at h
    split_ifs at h with hpid
    cases outcome with
    | waitFailed => simp at h
    | sendError => simp at h
    | retry =>
      have hwait := ih (Option.map_eq_none_iff.mp h)
      rw [UInt16.sub_add_cancel] at hwait
      rw [List.length_cons, List.count_cons_self]
      omega
    | sent =>
      have hwait := ih (Option.map_eq_none_iff.mp h)
      rw [succ_toNat hpid] at hwait
      rw [List.length_cons, List.count_cons_of_ne (by decide)]
      omega

theorem exists_return (frameId : UInt32) (frame : List UInt8) {answer : ℕ → SendOutcome}
    (hfinite : {i | answer i = .retry}.Finite) :
    ∃ n, (sendRun frameId frame ((List.range n).map answer) 0).isSome := by
  obtain ⟨bound, hbound⟩ := hfinite.bddAbove
  refine ⟨(packetCount frame).toNat + (bound + 1), ?_⟩
  rw [← Option.ne_none_iff_isSome]
  intro hwait
  have hlength := length_lt_of_waiting hwait
  have hretries : ((List.range ((packetCount frame).toNat + (bound + 1))).map answer).count
      .retry ≤ bound + 1 := by
    rw [Nat.add_comm, List.range_add, List.map_append, List.count_append]
    have hearly : ((List.range (bound + 1)).map answer).count .retry ≤ bound + 1 := by
      simpa using ((List.range (bound + 1)).map answer).count_le_length (a := .retry)
    have hlate : (((List.range (packetCount frame).toNat).map (bound + 1 + ·)).map answer).count
        .retry = 0 := by
      rw [List.count_eq_zero]
      intro hmem
      simp only [List.map_map, List.mem_map, Function.comp_apply] at hmem
      obtain ⟨i, -, hi⟩ := hmem
      have hle : bound + 1 + i ≤ bound := hbound hi
      omega
    omega
  rw [List.length_map, List.length_range, UInt16.toNat_zero] at hlength
  omega

/-- Whatever `poll` and `sendto` answer, a call of `sendFrame` that returns has sent the first
packets of the frame in order, no offset lies behind the frame, and the call returns if only
finitely many answers are retries. -/
theorem sendFrame_retries (s : UdpSender) (frame : List UInt8) :
    (∀ outcomes r, sendRun (s.frameId + 1) frame outcomes 0 = some r →
        (s.sendFrame frame outcomes).2 = r.sent ∧ SendsInOrder (s.frameId + 1) frame r) ∧
      (∀ pid < packetCount frame, pid.toNat * maxUdpPayload ≤ frame.length) ∧
      ∀ answer : ℕ → SendOutcome, {i | answer i = .retry}.Finite →
        ∃ n, (sendRun (s.frameId + 1) frame ((List.range n).map answer) 0).isSome := by
  refine ⟨fun outcomes r h => ?_, fun pid h => (offset_lt h).le, fun answer h => ?_⟩
  · exact ⟨(sendRun_spec h (Nat.zero_le _)).1, sendsInOrder_sendRun h⟩
  · exact exists_return _ _ h

def retriedSends : List SendOutcome := [.retry, .sent, .retry, .retry, .sent]

/-- Retries of packet 0, where the index wraps, and of packet 1 do not change what goes out. -/
theorem sendFrame_retries_twoPackets :
    ((new.sendFrame twoPacketFrame retriedSends).2 =
        [datagram 1 twoPacketFrame 0, datagram 1 twoPacketFrame 1] ∧
      SendsInOrder 1 twoPacketFrame
        ⟨[datagram 1 twoPacketFrame 0, datagram 1 twoPacketFrame 1], retriedSends⟩) ∧
      ∃ n, (sendRun 1 twoPacketFrame
        ((List.range n).map (fun i => if i < 3 then .retry else .sent)) 0).isSome := by
  have hrun : sendRun (new.frameId + 1) twoPacketFrame retriedSends 0 =
      some ⟨[datagram 1 twoPacketFrame 0, datagram 1 twoPacketFrame 1], retriedSends⟩ := by
    decide +kernel
  refine ⟨(sendFrame_retries new twoPacketFrame).1 _ _ hrun,
    (sendFrame_retries new twoPacketFrame).2.2 _ ?_⟩
  refine (Set.finite_lt_nat 3).subset (fun i hi => ?_)
  by_contra hlt
  have hsent : (if i < 3 then SendOutcome.retry else .sent) = .sent := if_neg hlt
  exact absurd (hsent.symm.trans hi) (by decide)

end UdpSender

end HvFrame
