import HvFrame.FrameReassemblerV2
import Mathlib.Data.Nat.Basic
import Mathlib.Tactic.Ring

/-!
# What a reassembly holds

The abstract content of a reassembly is a partial map from indices to packets: an index
below the announced count holds the first packet of that index whose slice ends inside the
buffer. The bitmap, the size and, for payloads no longer than the stride, every buffer
byte of `FrameReassemblerV2` are functions of this map.
-/

namespace HvFrame

variable {maxFrameSize payloadStride : ℕ} {count : UInt16}

/-- `p` is a packet of index `i` that `pushPacket` has room for. -/
def FitsAt (maxFrameSize payloadStride : ℕ) (i : ℕ) (p : RxPacket) : Prop :=
  p.hdr.packetId.toNat = i ∧ slotEnd payloadStride p.hdr ≤ maxFrameSize

instance (i : ℕ) (p : RxPacket) : Decidable (FitsAt maxFrameSize payloadStride i p) :=
  inferInstanceAs (Decidable (_ ∧ _))

/-- The packet that index `i` holds after the packets `ps`. -/
def storedPacket (maxFrameSize payloadStride : ℕ) (count : UInt16) (ps : List RxPacket) (i : ℕ) :
    Option RxPacket :=
  if i < count.toNat then ps.find? (fun p => decide (FitsAt maxFrameSize payloadStride i p))
  else none

/-- The byte that belongs at `pos`: the packet of the slot around it, or zero. -/
def contentByte (payloadStride : ℕ) (stored : ℕ → Option RxPacket) (pos : ℕ) : UInt8 :=
  match stored (pos / payloadStride) with
  | none => 0
  | some p =>
      if pos % payloadStride < p.hdr.payloadSize.toNat then p.payload (pos % payloadStride) else 0

theorem storedPacket_some {ps : List RxPacket} {i : ℕ} {p : RxPacket}
    (h : storedPacket maxFrameSize payloadStride count ps i = some p) :
    i < count.toNat ∧ p ∈ ps ∧ FitsAt maxFrameSize payloadStride i p := by
  simp only [storedPacket] at h
  split_ifs at h with hi
  exact ⟨hi, List.mem_of_find?_eq_some h, by simpa using List.find?_some h⟩

theorem storedPacket_isSome_iff {ps : List RxPacket} {i : ℕ} :
    (storedPacket maxFrameSize payloadStride count ps i).isSome ↔
      i < count.toNat ∧ ∃ p ∈ ps, FitsAt maxFrameSize payloadStride i p := by
  by_cases hi : i < count.toNat <;> simp [storedPacket, hi]

theorem storedPacket_concat (ps : List RxPacket) (p : RxPacket) (i : ℕ) :
    storedPacket maxFrameSize payloadStride count (ps ++ [p]) i =
      (storedPacket maxFrameSize payloadStride count ps i).or
        (if i < count.toNat ∧ FitsAt maxFrameSize payloadStride i p then some p else none) := by
  by_cases hi : i < count.toNat
  · by_cases hp : FitsAt maxFrameSize payloadStride i p <;>
      simp [storedPacket, hi, hp, List.find?_append]
  · simp [storedPacket, hi]

namespace FrameReassemblerV2

def pushAll (fr : FrameReassemblerV2) (ps : List RxPacket) : FrameReassemblerV2 :=
  ps.foldl (fun fr p => fr.pushPacket p.hdr p.payload p.gapBefore) fr

theorem pushAll_concat (fr : FrameReassemblerV2) (ps : List RxPacket) (p : RxPacket) :
    fr.pushAll (ps ++ [p]) = (fr.pushAll ps).pushPacket p.hdr p.payload p.gapBefore :=
  List.foldl_concat _ fr p ps

/-- The faithful state shows the abstract content of `ps`. -/
structure Reflects (maxFrameSize payloadStride : ℕ) (frameId : UInt32) (count : UInt16)
    (fr : FrameReassemblerV2) (ps : List RxPacket) : Prop where
  wellFormed : fr.WellFormed
  maxSize : fr.maxFrameSize = maxFrameSize
  stride : fr.payloadStride = payloadStride
  id : fr.currentFrameId = frameId
  expected : fr.expectedPacketCount = count
  bits : ∀ i < count.toNat, fr.packetReceived[i]? =
    some (storedPacket maxFrameSize payloadStride count ps i).isSome
  covers : ∀ i p, storedPacket maxFrameSize payloadStride count ps i = some p →
    slotEnd payloadStride p.hdr ≤ fr.frameSize
  reached : fr.frameSize = 0 ∨ ∃ i p,
    storedPacket maxFrameSize payloadStride count ps i = some p ∧
      fr.frameSize = slotEnd payloadStride p.hdr

theorem reflects_startNewFrame (maxFrameSize payloadStride : ℕ) (frameId : UInt32)
    (count : UInt16) :
    Reflects maxFrameSize payloadStride frameId count
      ((new maxFrameSize payloadStride).startNewFrame frameId count) [] where
  wellFormed := startNewFrame_wellFormed _ _ _ _
  maxSize := rfl
  stride := rfl
  id := rfl
  expected := rfl
  bits i hi := by simp [startNewFrame, storedPacket, hi]
  covers i p h := by simp [storedPacket] at h
  reached := Or.inl rfl

variable {frameId : UInt32} {fr : FrameReassemblerV2} {ps : List RxPacket} {p : RxPacket}

theorem Reflects.storedPacket_rejected (h : Reflects maxFrameSize payloadStride frameId count fr ps)
    (hrej : ∀ offset, fr.admission p.hdr ≠ .accepted offset) (i : ℕ) :
    storedPacket maxFrameSize payloadStride count (ps ++ [p]) i =
      storedPacket maxFrameSize payloadStride count ps i := by
  rw [storedPacket_concat]
  split_ifs with hp
  · obtain ⟨hi, rfl, hfits⟩ := hp
    have hfree : ¬ fr.expectedPacketCount ≤ p.hdr.packetId := by
      rw [UInt16.le_iff_toNat_le, h.expected]
      omega
    have hroom : ¬ fr.maxFrameSize < slotEnd fr.payloadStride p.hdr := by
      rw [h.maxSize, h.stride]
      omega
    have hbit : (storedPacket maxFrameSize payloadStride count ps p.hdr.packetId.toNat).isSome := by
      by_contra hnone
      apply hrej (slotOffset fr.payloadStride p.hdr.packetId)
      simp [admission, hfree, hroom, List.getD_eq_getElem?_getD, h.bits _ hi, hnone]
    exact Option.or_of_isSome hbit
  · exact Option.or_none

/-- An accepted packet takes its own index, which was free, and no other. -/
theorem Reflects.storedPacket_accepted (h : Reflects maxFrameSize payloadStride frameId count fr ps)
    {offset : ℕ} (hacc : fr.admission p.hdr = .accepted offset) :
    storedPacket maxFrameSize payloadStride count ps p.hdr.packetId.toNat = none ∧
      ∀ i, storedPacket maxFrameSize payloadStride count (ps ++ [p]) i =
        if i = p.hdr.packetId.toNat then some p
        else storedPacket maxFrameSize payloadStride count ps i := by
  obtain ⟨hrange, hfree, hfits, -⟩ := admission_accepted hacc
  rw [h.expected] at hrange
  rw [h.maxSize, h.stride] at hfits
  have hnone : storedPacket maxFrameSize payloadStride count ps p.hdr.packetId.toNat = none := by
    simpa [List.getD_eq_getElem?_getD, h.bits _ hrange] using hfree
  refine ⟨hnone, fun i => ?_⟩
  rw [storedPacket_concat]
  split_ifs with hp hi hi
  · rw [hi, hnone, Option.none_or]
  · exact absurd hp.2.1.symm hi
  · exact absurd ⟨hi ▸ hrange, hi.symm, hfits⟩ hp
  · exact Option.or_none

theorem Reflects.pushPacket (h : Reflects maxFrameSize payloadStride frameId count fr ps) :
    Reflects maxFrameSize payloadStride frameId count
      (fr.pushPacket p.hdr p.payload p.gapBefore) (ps ++ [p]) := by
  have hwf := pushPacket_wellFormed h.wellFormed p.hdr p.payload p.gapBefore
  rcases fr.pushPacket_cases p.hdr p.payload p.gapBefore with ⟨offset, hacc, he⟩ | ⟨hrej, he⟩
  · obtain ⟨hrange, -, -, -⟩ := admission_accepted hacc
    obtain ⟨hnone, hstored⟩ := h.storedPacket_accepted hacc
    have hlt : p.hdr.packetId.toNat < fr.packetReceived.length := by
      rw [h.wellFormed.bitmap]
      exact hrange
    rw [he] at hwf ⊢
    refine ⟨hwf, h.maxSize, h.stride, h.id, h.expected, ?_, ?_, ?_⟩
    · intro i hi
      rw [hstored]
      simp only [store, List.getElem?_set]
      split_ifs with h₁ h₂ h₂
      · rfl
      · exact absurd h₁.symm h₂
      · exact absurd h₂.symm h₁
      · exact h.bits i hi
    · intro i q hq
      rw [hstored] at hq
      simp only [store, h.stride]
      split_ifs at hq with hi
      · obtain rfl := Option.some.inj hq
        exact le_max_right _ _
      · exact (h.covers i q hq).trans (le_max_left _ _)
    · simp only [store, h.stride]
      rcases max_choice fr.frameSize (slotEnd payloadStride p.hdr) with hmax | hmax
      · rw [hmax]
        rcases h.reached with h₀ | ⟨i, q, hq, hsize⟩
        · exact Or.inl h₀
        · refine Or.inr ⟨i, q, ?_, hsize⟩
          have hne : i ≠ p.hdr.packetId.toNat := fun hi => by simp [hi, hnone] at hq
          rw [hstored, if_neg hne]
          exact hq
      · rw [hmax]
        exact Or.inr ⟨p.hdr.packetId.toNat, p, by rw [hstored, if_pos rfl], rfl⟩
  · have hstored := h.storedPacket_rejected hrej
    rw [he]
    refine ⟨h.wellFormed, h.maxSize, h.stride, h.id, h.expected, ?_, ?_, ?_⟩
    · simpa only [hstored] using h.bits
    · simpa only [hstored] using h.covers
    · simpa only [hstored] using h.reached

theorem reflects_pushAll (maxFrameSize payloadStride : ℕ) (frameId : UInt32) (count : UInt16)
    (ps : List RxPacket) :
    Reflects maxFrameSize payloadStride frameId count
      (((new maxFrameSize payloadStride).startNewFrame frameId count).pushAll ps) ps := by
  induction ps using List.reverseRecOn with
  | nil => exact reflects_startNewFrame _ _ _ _
  | append_singleton ps p ih =>
    rw [pushAll_concat]
    exact ih.pushPacket

/-- The manager's completeness test says that every announced index is held. -/
theorem Reflects.complete_iff (h : Reflects maxFrameSize payloadStride frameId count fr ps) :
    fr.receivedPacketsCount = fr.expectedPacketCount ↔
      ∀ i < count.toNat, (storedPacket maxFrameSize payloadStride count ps i).isSome := by
  rw [h.wellFormed.received_eq_iff, h.expected]
  refine forall₂_congr (fun i hi => ?_)
  rw [h.bits i hi, Option.some_inj]

theorem Reflects.hasPacket_iff (h : Reflects maxFrameSize payloadStride frameId count fr ps)
    (pid : UInt16) :
    fr.hasPacket pid = (storedPacket maxFrameSize payloadStride count ps pid.toNat).isSome := by
  simp only [hasPacket, h.expected, UInt16.le_iff_toNat_le]
  split_ifs with hle
  · simp [storedPacket, Nat.not_lt.mpr hle]
  · rw [List.getD_eq_getElem?_getD, h.bits _ (Nat.not_le.mp hle), Option.getD_some]

theorem slotOffset_eq (hstride : payloadStride ≤ 2 ^ 32) (pid : UInt16) :
    slotOffset payloadStride pid = pid.toNat * payloadStride := by
  have hpid := pid.toNat_lt
  have hmul : pid.toNat * payloadStride ≤ 2 ^ 16 * 2 ^ 32 := Nat.mul_le_mul hpid.le hstride
  exact Nat.mod_eq_of_lt (by omega)

theorem slotEnd_eq (hstride : payloadStride ≤ 2 ^ 32) (hdr : UdpPacketHeader) :
    slotEnd payloadStride hdr =
      hdr.packetId.toNat * payloadStride + hdr.payloadSize.toNat := by
  have hpid := hdr.packetId.toNat_lt
  have hsize := hdr.payloadSize.toNat_lt
  have hmul : hdr.packetId.toNat * payloadStride ≤ 2 ^ 16 * 2 ^ 32 :=
    Nat.mul_le_mul hpid.le hstride
  rw [slotEnd, slotOffset_eq hstride]
  exact Nat.mod_eq_of_lt (by omega)

private theorem mem_slot_iff {size : ℕ} (i pos : ℕ) (hpos : 0 < payloadStride)
    (hsize : size ≤ payloadStride) :
    (i * payloadStride ≤ pos ∧ pos < i * payloadStride + size) ↔
      pos / payloadStride = i ∧ pos % payloadStride < size := by
  have hdiv := Nat.div_add_mod pos payloadStride
  have hmod := Nat.mod_lt pos hpos
  constructor
  · rintro ⟨hlow, hhigh⟩
    have hi : pos / payloadStride = i := by
      refine Nat.div_eq_of_lt_le (by omega) ?_
      rw [Nat.add_mul]
      omega
    rw [hi, Nat.mul_comm] at hdiv
    exact ⟨hi, by omega⟩
  · rintro ⟨rfl, hlt⟩
    rw [Nat.mul_comm]
    omega

/-- When no payload is longer than the stride, every buffer byte is the one that belongs there. -/
theorem frameBuffer_pushAll (hpos : 0 < payloadStride) (hstride : payloadStride ≤ 2 ^ 32)
    (maxFrameSize : ℕ) (frameId : UInt32) (count : UInt16) (ps : List RxPacket)
    (hslot : ∀ p ∈ ps, p.hdr.payloadSize.toNat ≤ payloadStride) :
    ∀ pos < maxFrameSize,
      (((new maxFrameSize payloadStride).startNewFrame frameId count).pushAll ps).frameBuffer[pos]?
        = some (contentByte payloadStride
            (storedPacket maxFrameSize payloadStride count ps) pos) := by
  induction ps using List.reverseRecOn with
  | nil =>
    intro pos hlt
    simp [pushAll, startNewFrame, new, hlt, contentByte, storedPacket]
  | append_singleton ps p ih =>
    have hprev := ih (fun q hq => hslot q (List.mem_append_left _ hq))
    have hp := hslot p (List.mem_append_right _ List.mem_cons_self)
    have href := reflects_pushAll maxFrameSize payloadStride frameId count ps
    rw [pushAll_concat]
    set fr := ((new maxFrameSize payloadStride).startNewFrame frameId count).pushAll ps with hfr
    intro pos hlt
    rcases fr.pushPacket_cases p.hdr p.payload p.gapBefore with ⟨offset, hacc, he⟩ | ⟨hrej, he⟩
    · obtain ⟨hnone, hstored⟩ := href.storedPacket_accepted hacc
      obtain ⟨-, -, -, hoffset⟩ := admission_accepted hacc
      rw [href.stride, slotOffset_eq hstride] at hoffset
      have hlen : pos < fr.frameBuffer.length := by
        rw [href.wellFormed.buffer, href.maxSize]
        exact hlt
      have hslotIff := mem_slot_iff p.hdr.packetId.toNat pos hpos hp
      rw [he]
      simp only [store, contentByte, hstored]
      by_cases hin : pos / payloadStride = p.hdr.packetId.toNat ∧
          pos % payloadStride < p.hdr.payloadSize.toNat
      · obtain ⟨hlow, hhigh⟩ := hslotIff.mpr hin
        have hsub : pos - offset = pos % payloadStride := by
          have hdiv := Nat.div_add_mod pos payloadStride
          rw [hin.1, Nat.mul_comm] at hdiv
          omega
        rw [getElem?_blockCopy_inside p.payload (by omega) (by omega) hlen]
        simp [hin.1, hin.2, hsub]
      · have hout : pos < offset ∨ offset + p.hdr.payloadSize.toNat ≤ pos := by
          by_contra hcon
          exact hin (hslotIff.mp (by omega))
        rw [getElem?_blockCopy_outside p.payload hout, hprev pos hlt, contentByte]
        by_cases hi : pos / payloadStride = p.hdr.packetId.toNat
        · have hge : ¬ pos % payloadStride < p.hdr.payloadSize.toNat := fun h => hin ⟨hi, h⟩
          simp [hi, hnone, hge]
        · simp [hi]
    · rw [he, hprev pos hlt]
      simp only [contentByte, href.storedPacket_rejected hrej]

end FrameReassemblerV2

end HvFrame
