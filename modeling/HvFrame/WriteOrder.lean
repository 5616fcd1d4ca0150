import HvFrame.BlockWrites
import HvFrame.ReassemblerRuns
import HvFrame.ReceivePath
import Mathlib.Data.List.GetD
import Mathlib.Data.List.Nodup

/-!
# The order of the packets of a frame

Slots are `payload_stride` bytes apart, but only the end of the whole buffer bounds a payload,
so a payload longer than the stride reaches into the next slot. The order of arrival matters
exactly if two packets that both fit differ in a byte they share.
-/

namespace HvFrame

def RxPacket.slotWrite (payloadStride : ℕ) (p : RxPacket) : BlockWrite UInt8 :=
  ⟨slotOffset payloadStride p.hdr.packetId, p.payload, p.hdr.payloadSize.toNat⟩

/-- `pushPacket` accepts the first packet of this index. -/
def Admissible (maxFrameSize payloadStride : ℕ) (count : UInt16) (p : RxPacket) : Prop :=
  p.hdr.packetId < count ∧ slotEnd payloadStride p.hdr ≤ maxFrameSize

instance (maxFrameSize payloadStride : ℕ) (count : UInt16) (p : RxPacket) :
    Decidable (Admissible maxFrameSize payloadStride count p) :=
  inferInstanceAs (Decidable (_ ∧ _))

/-- No two packets that fit put different bytes at the same position. -/
def ConsistentWrites (maxFrameSize payloadStride : ℕ) (count : UInt16) (ps : List RxPacket) :
    Prop :=
  ∀ p ∈ ps, ∀ q ∈ ps, Admissible maxFrameSize payloadStride count p →
    Admissible maxFrameSize payloadStride count q →
    (p.slotWrite payloadStride).Compatible (q.slotWrite payloadStride)

/-- Every index has at most one packet in the list. -/
def DistinctIds (ps : List RxPacket) : Prop := (ps.map (fun p => p.hdr.packetId)).Nodup

instance (ps : List RxPacket) : Decidable (DistinctIds ps) :=
  inferInstanceAs (Decidable (List.Nodup _))

variable {maxFrameSize payloadStride : ℕ} {count : UInt16} {ps qs : List RxPacket}

theorem RxPacket.slotWrite_covers_iff (hstride : payloadStride ≤ 2 ^ 32) (p : RxPacket)
    (pos : ℕ) :
    (p.slotWrite payloadStride).Covers pos ↔ p.hdr.packetId.toNat * payloadStride ≤ pos ∧
      pos < p.hdr.packetId.toNat * payloadStride + p.hdr.payloadSize.toNat := by
  rw [BlockWrite.Covers, RxPacket.slotWrite, FrameReassemblerV2.slotOffset_eq hstride]

theorem DistinctIds.perm (h : DistinctIds ps) (hperm : ps.Perm qs) : DistinctIds qs :=
  (hperm.map _).nodup_iff.mp h

theorem DistinctIds.storedPacket_eq_some_iff (h : DistinctIds ps) {i : ℕ} {p : RxPacket} :
    storedPacket maxFrameSize payloadStride count ps i = some p ↔
      p ∈ ps ∧ i < count.toNat ∧ FitsAt maxFrameSize payloadStride i p := by
  constructor
  · intro hp
    obtain ⟨hi, hmem, hfits⟩ := storedPacket_some hp
    exact ⟨hmem, hi, hfits⟩
  · rintro ⟨hmem, hi, hfits⟩
    obtain ⟨q, hq⟩ := Option.isSome_iff_exists.mp
      (storedPacket_isSome_iff.mpr ⟨hi, p, hmem, hfits⟩)
    obtain ⟨-, hqmem, hqfits⟩ := storedPacket_some hq
    have hid : q.hdr.packetId = p.hdr.packetId := UInt16.toNat_inj.mp (hqfits.1.trans hfits.1.symm)
    rw [hq, List.inj_on_of_nodup_map h hqmem hmem hid]

theorem DistinctIds.storedPacket_perm (h : DistinctIds ps) (hperm : ps.Perm qs) (i : ℕ) :
    storedPacket maxFrameSize payloadStride count ps i =
      storedPacket maxFrameSize payloadStride count qs i := by
  refine Option.ext (fun p => ?_)
  rw [h.storedPacket_eq_some_iff, (h.perm hperm).storedPacket_eq_some_iff, hperm.mem_iff]

namespace FrameReassemblerV2

/-- The two reassemblies show the same frame: indices, counter, size and bytes. -/
structure ShowsSame (fr fr' : FrameReassemblerV2) : Prop where
  hasPacket : ∀ pid, fr.hasPacket pid = fr'.hasPacket pid
  received : fr.receivedPacketsCount = fr'.receivedPacketsCount
  size : fr.frameSize = fr'.frameSize
  bytes : fr.frameBuffer.take fr.frameSize = fr'.frameBuffer.take fr'.frameSize

variable {frameId : UInt32} {fr fr' : FrameReassemblerV2}

theorem Reflects.frameSize_le (h : Reflects maxFrameSize payloadStride frameId count fr ps)
    (h' : Reflects maxFrameSize payloadStride frameId count fr' qs)
    (hstored : ∀ i, storedPacket maxFrameSize payloadStride count ps i =
      storedPacket maxFrameSize payloadStride count qs i) :
    fr.frameSize ≤ fr'.frameSize := by
  rcases h.reached with hzero | ⟨i, p, hp, hsize⟩
  · omega
  · rw [hstored] at hp
    rw [hsize]
    exact h'.covers i p hp

theorem Reflects.counters_eq (h : Reflects maxFrameSize payloadStride frameId count fr ps)
    (h' : Reflects maxFrameSize payloadStride frameId count fr' qs)
    (hstored : ∀ i, storedPacket maxFrameSize payloadStride count ps i =
      storedPacket maxFrameSize payloadStride count qs i) :
    (∀ pid, fr.hasPacket pid = fr'.hasPacket pid) ∧
      fr.receivedPacketsCount = fr'.receivedPacketsCount ∧ fr.frameSize = fr'.frameSize := by
  have hbits : fr.packetReceived = fr'.packetReceived := by
    refine List.ext_getElem? (fun i => ?_)
    rcases Nat.lt_or_ge i count.toNat with hi | hi
    · rw [h.bits i hi, h'.bits i hi, hstored]
    · rw [List.getElem?_eq_none (by rw [h.wellFormed.bitmap, h.expected]; exact hi),
        List.getElem?_eq_none (by rw [h'.wellFormed.bitmap, h'.expected]; exact hi)]
  refine ⟨fun pid => ?_, ?_, ?_⟩
  · rw [h.hasPacket_iff, h'.hasPacket_iff, hstored]
  · rw [← UInt16.toNat_inj, h.wellFormed.counter, h'.wellFormed.counter, hbits]
  · exact le_antisymm (h.frameSize_le h' hstored) (h'.frameSize_le h (fun i => (hstored i).symm))

/-- The buffer has taken exactly the writes of the accepted packets. -/
theorem Usable.frameBuffer_pushAll (h : Usable maxFrameSize payloadStride fr) (frameId : UInt32)
    (count : UInt16) (ps : List RxPacket) :
    ((fr.startNewFrame frameId count).pushAll ps).frameBuffer =
      BlockWrite.applyAll fr.frameBuffer (((fr.startNewFrame frameId count).acceptedPackets ps).map
        (RxPacket.slotWrite payloadStride)) := by
  induction ps using List.reverseRecOn with
  | nil => rfl
  | append_singleton ps p ih =>
    have href := h.reflects_pushAll frameId count ps
    rw [acceptedPackets_concat, pushAll_concat]
    set fr₁ := (fr.startNewFrame frameId count).pushAll ps
    rcases fr₁.pushPacket_cases p.hdr p.payload p.gapBefore with ⟨offset, hacc, he⟩ | ⟨hrej, he⟩
    · obtain ⟨-, -, -, hoffset⟩ := admission_accepted hacc
      rw [if_pos (accepts_iff.mpr ⟨offset, hacc⟩), he, List.map_append, List.map_singleton,
        BlockWrite.applyAll_concat, ← ih, hoffset, href.stride]
      rfl
    · have hnot : ¬ fr₁.accepts p = true := fun haccepts =>
        (accepts_iff.mp haccepts).elim hrej
      rw [if_neg hnot, he, List.append_nil, ih]

/-- Whether a packet is accepted depends on the packets before it, and on nothing older. -/
theorem Reflects.accepts_iff (h : Reflects maxFrameSize payloadStride frameId count fr ps)
    {p : RxPacket} : fr.accepts p = true ↔
      storedPacket maxFrameSize payloadStride count ps p.hdr.packetId.toNat = none ∧
        Admissible maxFrameSize payloadStride count p := by
  rw [FrameReassemblerV2.accepts_iff]
  constructor
  · rintro ⟨offset, hacc⟩
    obtain ⟨hrange, -, hfits, -⟩ := admission_accepted hacc
    rw [h.expected] at hrange
    rw [h.maxSize, h.stride] at hfits
    exact ⟨(h.storedPacket_accepted hacc).1, UInt16.lt_iff_toNat_lt.mpr hrange, hfits⟩
  · rintro ⟨hnone, hrange, hfits⟩
    by_contra hrej
    have hstored := h.storedPacket_rejected (not_exists.mp hrej) p.hdr.packetId.toNat
    have hheld : (storedPacket maxFrameSize payloadStride count (ps ++ [p])
        p.hdr.packetId.toNat).isSome :=
      storedPacket_isSome_iff.mpr ⟨UInt16.lt_iff_toNat_lt.mp hrange, p, by simp, rfl, hfits⟩
    rw [hstored, hnone] at hheld
    cases hheld

theorem Usable.acceptedPackets_eq (h : Usable maxFrameSize payloadStride fr) (frameId : UInt32)
    (count : UInt16) (hids : DistinctIds ps) :
    (fr.startNewFrame frameId count).acceptedPackets ps =
      ps.filter (fun p => Admissible maxFrameSize payloadStride count p) := by
  induction ps using List.reverseRecOn with
  | nil => rfl
  | append_singleton ps p ih =>
    rw [DistinctIds, List.map_append, List.nodup_append] at hids
    obtain ⟨hids, -, hdisjoint⟩ := hids
    have hfree : ∀ q ∈ ps, q.hdr.packetId ≠ p.hdr.packetId := fun q hq =>
      hdisjoint _ (List.mem_map_of_mem hq) _ (by simp)
    have hnone : storedPacket maxFrameSize payloadStride count ps p.hdr.packetId.toNat = none := by
      refine Option.eq_none_iff_forall_ne_some.mpr (fun q hq => ?_)
      obtain ⟨-, hmem, hindex, -⟩ := storedPacket_some hq
      exact hfree q hmem (UInt16.toNat_inj.mp hindex)
    have haccepts : ((fr.startNewFrame frameId count).pushAll ps).accepts p = true ↔
        Admissible maxFrameSize payloadStride count p := by
      rw [(h.reflects_pushAll frameId count ps).accepts_iff, and_iff_right hnone]
    rw [acceptedPackets_concat, ih hids, List.filter_append]
    by_cases hp : Admissible maxFrameSize payloadStride count p
    · rw [if_pos (haccepts.mpr hp), List.filter_singleton, decide_eq_true hp, Bool.cond_true]
    · rw [if_neg (haccepts.not.mpr hp), List.filter_singleton, decide_eq_false hp, Bool.cond_false]

/-- Pushing the packets in any other order shows the same frame. -/
def OrderFree (fr : FrameReassemblerV2) (frameId : UInt32) (count : UInt16)
    (ps : List RxPacket) : Prop :=
  ∀ qs, ps.Perm qs →
    ((fr.startNewFrame frameId count).pushAll ps).ShowsSame
      ((fr.startNewFrame frameId count).pushAll qs)

theorem Usable.orderFree_of_consistent (h : Usable maxFrameSize payloadStride fr)
    (frameId : UInt32) (hids : DistinctIds ps)
    (hwrites : ConsistentWrites maxFrameSize payloadStride count ps) :
    OrderFree fr frameId count ps := by
  intro qs hperm
  have href := h.reflects_pushAll frameId count ps
  have href' := h.reflects_pushAll frameId count qs
  obtain ⟨hbits, hreceived, hsize⟩ :=
    href.counters_eq href' (fun i => hids.storedPacket_perm hperm i)
  refine ⟨hbits, hreceived, hsize, ?_⟩
  rw [hsize, h.frameBuffer_pushAll frameId count ps, h.frameBuffer_pushAll frameId count qs,
    h.acceptedPackets_eq frameId count hids, h.acceptedPackets_eq frameId count (hids.perm hperm)]
  congr 1
  refine BlockWrite.applyAll_perm ((hperm.filter _).map _) ?_ fr.frameBuffer
  intro v hv w hw
  obtain ⟨p, hp, rfl⟩ := List.mem_map.mp hv
  obtain ⟨q, hq, rfl⟩ := List.mem_map.mp hw
  simp only [List.mem_filter, decide_eq_true_eq] at hp hq
  exact hwrites p hp.1 q hq.1 hp.2 hq.2

theorem Usable.getElem?_last (h : Usable maxFrameSize payloadStride fr)
    (hstride : payloadStride ≤ 2 ^ 32) (frameId : UInt32) {p : RxPacket}
    (hids : DistinctIds (ps ++ [p])) (hp : Admissible maxFrameSize payloadStride count p) {i : ℕ}
    (hi : (p.slotWrite payloadStride).Covers i) :
    (((fr.startNewFrame frameId count).pushAll (ps ++ [p])).frameBuffer.take
      ((fr.startNewFrame frameId count).pushAll (ps ++ [p])).frameSize)[i]? =
        some ((p.slotWrite payloadStride).valueAt i) := by
  have href := h.reflects_pushAll frameId count (ps ++ [p])
  obtain ⟨hrange, hfits⟩ := hp
  have hcovers := href.covers p.hdr.packetId.toNat p (hids.storedPacket_eq_some_iff.mpr
    ⟨by simp, UInt16.lt_iff_toNat_lt.mp hrange, rfl, hfits⟩)
  have hend : i < slotEnd payloadStride p.hdr := by
    rw [slotEnd_eq hstride]
    exact ((p.slotWrite_covers_iff hstride i).mp hi).2
  have hlen : i < fr.frameBuffer.length := by
    rw [h.wellFormed.buffer, h.maxSize]
    omega
  have hlast : [p].filter (fun p => Admissible maxFrameSize payloadStride count p) = [p] := by
    simp [Admissible, hrange, hfits]
  rw [List.getElem?_take_of_lt (by omega), h.frameBuffer_pushAll frameId count (ps ++ [p]),
    h.acceptedPackets_eq frameId count hids, List.filter_append, hlast, List.map_append,
    List.map_singleton]
  exact BlockWrite.getElem?_applyAll_concat hi hlen

private theorem exists_perm_concat_two {p q : RxPacket} (hp : p ∈ ps) (hq : q ∈ ps)
    (hne : p ≠ q) : ∃ rest, ps.Perm (rest ++ [p] ++ [q]) ∧ ps.Perm (rest ++ [q] ++ [p]) := by
  obtain ⟨s, t, rfl⟩ := List.append_of_mem hp
  have hq' : q ∈ s ++ t := by
    have hcases := (List.perm_middle.mem_iff).mp hq
    exact (List.mem_cons.mp hcases).resolve_left (Ne.symm hne)
  obtain ⟨u, v, huv⟩ := List.append_of_mem hq'
  have hfront : (s ++ p :: t).Perm (p :: q :: (u ++ v)) := by
    refine List.perm_middle.trans (List.Perm.cons p ?_)
    rw [huv]
    exact List.perm_middle
  have hback : ∀ a b : RxPacket, (a :: b :: (u ++ v)).Perm (u ++ v ++ [a] ++ [b]) := by
    intro a b
    simpa using (List.perm_append_comm : ([a, b] ++ (u ++ v)).Perm _)
  exact ⟨u ++ v, hfront.trans (hback p q),
    hfront.trans ((List.Perm.swap q p _).trans (hback q p))⟩

theorem Usable.consistent_of_orderFree (h : Usable maxFrameSize payloadStride fr)
    (hstride : payloadStride ≤ 2 ^ 32) (frameId : UInt32) (hids : DistinctIds ps)
    (hfree : OrderFree fr frameId count ps) :
    ConsistentWrites maxFrameSize payloadStride count ps := by
  intro p hp q hq hpa hqa
  by_cases hpq : p = q
  · rw [hpq]
    exact BlockWrite.Compatible.refl _
  · intro i hpi hqi
    -- bring the two to the end, in either order
    obtain ⟨rest, hpermQ, hpermP⟩ := exists_perm_concat_two hp hq hpq
    have hshowQ := h.getElem?_last hstride frameId (hids.perm hpermQ) hqa hqi
    have hshowP := h.getElem?_last hstride frameId (hids.perm hpermP) hpa hpi
    rw [← (hfree _ hpermQ).bytes] at hshowQ
    rw [← (hfree _ hpermP).bytes, hshowQ] at hshowP
    exact (Option.some.inj hshowP).symm

/-- In a reassembler with the receiver's stride, whatever it held before, the order of the
packets is invisible exactly if no two that fit put different bytes at one position. -/
theorem orderFree_iff (maxFrameSize : ℕ) (history : List ReassemblerCall) (frameId : UInt32)
    (count : UInt16) (hids : DistinctIds ps) :
    OrderFree (machine.state (new maxFrameSize Receiver.payloadStride) history) frameId count ps ↔
      ConsistentWrites maxFrameSize Receiver.payloadStride count ps := by
  have h := usable_run maxFrameSize Receiver.payloadStride history
  exact ⟨h.consistent_of_orderFree (by decide) frameId hids,
    h.orderFree_of_consistent frameId hids⟩

/-- The two full-stride packets of a frame may come in either order. -/
def adjacentPackets : List RxPacket :=
  [⟨⟨1, 0, 2, 1400⟩, fun _ => 1, false⟩, ⟨⟨1, 1, 2, 1⟩, fun _ => 2, false⟩]

theorem orderFree_adjacentPackets :
    OrderFree (machine.state (new Receiver.maxFrameSize Receiver.payloadStride) []) 1 2
      adjacentPackets := by
  refine (orderFree_iff Receiver.maxFrameSize [] 1 2 (by decide)).mpr ?_
  intro p hp q hq _ _ i hpi hqi
  have hfirst : slotOffset Receiver.payloadStride 0 = 0 := by decide
  have hsecond : slotOffset Receiver.payloadStride 1 = 1400 := by decide
  simp only [adjacentPackets, List.mem_cons, List.not_mem_nil, or_false] at hp hq
  rcases hp with rfl | rfl <;> rcases hq with rfl | rfl
  · rfl
  · simp [BlockWrite.Covers, RxPacket.slotWrite, hfirst, hsecond] at hpi hqi
    omega
  · simp [BlockWrite.Covers, RxPacket.slotWrite, hfirst, hsecond] at hpi hqi
    omega
  · rfl

/-- Packet 0 carries one byte more than the stride. -/
def overlappingPackets : List RxPacket :=
  [{ hdr := ⟨1, 0, 2, 1401⟩, payload := fun i => (List.replicate 1401 1).getD i 0 },
    { hdr := ⟨1, 1, 2, 1⟩, payload := fun i => [2].getD i 0 }]

theorem receivable_overlappingPackets : ∀ p ∈ overlappingPackets, Receivable p := by
  intro p hp
  simp only [overlappingPackets, List.mem_cons, List.not_mem_nil, or_false] at hp
  rcases hp with rfl | rfl
  · refine receivable_of_bytes _ _ (List.ne_nil_of_length_pos ?_) ?_ ?_ <;>
      rw [List.length_replicate] <;> decide
  · exact receivable_of_bytes _ _ (by simp) (by decide) (by decide)

/-- The byte at position 1400 is the one of the packet that came last. -/
theorem not_orderFree :
    ¬ ∀ (frameId : UInt32) (count : UInt16) (ps : List RxPacket), DistinctIds ps →
      (∀ p ∈ ps, Receivable p) →
      OrderFree (new Receiver.maxFrameSize Receiver.payloadStride) frameId count ps := by
  intro h
  have hids : DistinctIds overlappingPackets := by decide
  have hwrites := (usable_new Receiver.maxFrameSize Receiver.payloadStride).consistent_of_orderFree
    (by decide) 1 hids (h 1 2 overlappingPackets hids receivable_overlappingPackets)
  have hmeet := hwrites _ (List.mem_cons_self) _ (List.mem_cons_of_mem _ List.mem_cons_self)
    (by decide) (by decide) 1400 ⟨by decide, by decide⟩ ⟨by decide, by decide⟩
  have hfirst : slotOffset Receiver.payloadStride 0 = 0 := by decide
  have hsecond : slotOffset Receiver.payloadStride 1 = 1400 := by decide
  simp only [BlockWrite.valueAt, RxPacket.slotWrite, hfirst, hsecond, Nat.sub_zero, Nat.sub_self]
    at hmeet
  have hover : (List.replicate 1401 (1 : UInt8)).getD 1400 0 = 1 :=
    List.getD_replicate 1 (by decide)
  rw [hover] at hmeet
  exact absurd hmeet (by decide)

end FrameReassemblerV2

end HvFrame
