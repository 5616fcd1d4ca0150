import HvFrame.PlainRuns

/-!
# Complete frames of the plain reassembler

`frameComplete` compares the number of stored packets with the announced count, and `pushPacket`
stores any index. So a frame is called complete with an index missing exactly when its last
packet fills up the count while an index beyond it is stored.
-/

namespace HvFrame

def indices (count : UInt16) : List UInt16 := (List.range count.toNat).map UInt16.ofNat

theorem mem_indices_iff {count pid : UInt16} : pid ∈ indices count ↔ pid < count := by
  rw [indices, List.mem_map, UInt16.lt_iff_toNat_lt]
  constructor
  · rintro ⟨i, hi, rfl⟩
    rw [List.mem_range] at hi
    rwa [index_toNat hi]
  · exact fun h => ⟨pid.toNat, List.mem_range.mpr h, UInt16.ofNat_toNat⟩

theorem indices_length (count : UInt16) : (indices count).length = count.toNat := by
  rw [indices, List.length_map, List.length_range]

theorem indices_nodup (count : UInt16) : (indices count).Nodup := by
  refine List.Nodup.map_on (fun i hi j hj hij => ?_) List.nodup_range
  rw [List.mem_range] at hi hj
  have htoNat := congrArg UInt16.toNat hij
  rwa [index_toNat hi, index_toNat hj] at htoNat

namespace FrameReassembler

def firstPayload (xs : List TimedPush) (pid : UInt16) : List UInt8 :=
  ((xs.find? (fun x => x.pkt.hdr.packetId = pid)).map TimedPush.bytes).getD []

/-- Every index is there, and the frame pops as the first payloads of all indices in order. -/
structure PopsWhole (r : FrameReassembler) (xs : List TimedPush) : Prop where
  all : ∀ pid < r.expectedPacketCount, (r.packets.find? pid).isSome = true
  joined : (joinPackets r.packets r.expectedPacketCount.toNat).isSome = true
  popped : r.popFrame = (r.reset, (List.range r.expectedPacketCount.toNat).flatMap (fun i =>
    firstPayload xs (UInt16.ofNat i)))

/-- Whenever a frame is complete it can be popped. -/
def CompletePopsWhole (calls : List PlainCall) : Prop :=
  ∀ before, before <+: calls → (machine.state new before).frameComplete = true →
    PopsWhole (machine.state new before) (openFrame before)

/-- The push stores the packet that brings the counter to the announced count, while it or a
packet stored before has an index beyond the count. -/
structure FillsOutOfRange (r : FrameReassembler) (x : TimedPush) : Prop where
  kept : r.discards x = false
  first : (r.enterFrame x.pkt.hdr x.clock.startNow).packets.find? x.pkt.hdr.packetId = none
  announced : 0 < (r.enterFrame x.pkt.hdr x.clock.startNow).expectedPacketCount
  fills : (r.enterFrame x.pkt.hdr x.clock.startNow).receivedPacketCount + 1 =
    (r.enterFrame x.pkt.hdr x.clock.startNow).expectedPacketCount
  outOfRange : ∃ pid, (x.pkt.hdr.packetId = pid ∨
      ((r.enterFrame x.pkt.hdr x.clock.startNow).packets.find? pid).isSome = true) ∧
    (r.enterFrame x.pkt.hdr x.clock.startNow).expectedPacketCount ≤ pid

def NeverFillsOutOfRange (calls : List PlainCall) : Prop :=
  ∀ y ∈ positions calls, ∀ x, y.2 = .pushPacket x → ¬ FillsOutOfRange (machine.state new y.1) x

def InRange (r : FrameReassembler) : Prop :=
  r.frameComplete = true → ∀ pid, (r.packets.find? pid).isSome = true →
    pid < r.expectedPacketCount

variable {r : FrameReassembler} {xs : List TimedPush} {x : TimedPush}

theorem frameComplete_iff : r.frameComplete = true ↔
    0 < r.expectedPacketCount ∧ r.receivedPacketCount = r.expectedPacketCount := by
  simp [frameComplete]

/-- The counter has wrapped only if all 65536 indices are stored, and then it is zero. -/
theorem Holds.size_of_complete (h : Holds r xs) (hdone : r.frameComplete = true) :
    r.packets.size = r.expectedPacketCount.toNat := by
  obtain ⟨hpos, hcount⟩ := frameComplete_iff.mp hdone
  have hle : r.packets.size ≤ 2 ^ 16 := by
    have hall : r.packets.size ≤ ((List.range (2 ^ 16)).map UInt16.ofNat).length :=
      r.packets.size_le (fun pid _ => List.mem_map.mpr ⟨pid.toNat,
        List.mem_range.mpr pid.toNat_lt, UInt16.ofNat_toNat⟩)
    rwa [List.length_map, List.length_range] at hall
  rw [h.counter] at hcount
  have hmod : r.packets.size % 2 ^ 16 = r.expectedPacketCount.toNat := congrArg UInt16.toNat hcount
  rw [UInt16.lt_iff_toNat_lt, UInt16.toNat_zero] at hpos
  omega

/-- A complete frame has every index exactly if it has no other. -/
theorem Holds.all_iff_inRange (h : Holds r xs) (hdone : r.frameComplete = true) :
    (∀ pid < r.expectedPacketCount, (r.packets.find? pid).isSome = true) ↔
      ∀ pid, (r.packets.find? pid).isSome = true → pid < r.expectedPacketCount := by
  have hsize := h.size_of_complete hdone
  constructor
  · intro hall pid hpid
    by_contra hout
    -- the announced indices and this one are more than are stored
    have hnodup : (pid :: indices r.expectedPacketCount).Nodup :=
      List.nodup_cons.mpr ⟨fun hmem => hout (mem_indices_iff.mp hmem), indices_nodup _⟩
    have hlength := r.packets.length_le_size hnodup (fun k hk => by
      rcases List.mem_cons.mp hk with rfl | hk
      · exact hpid
      · exact hall k (mem_indices_iff.mp hk))
    rw [List.length_cons, indices_length] at hlength
    omega
  · intro hin pid hpid
    exact r.packets.isSome_of_size (fun k hk => mem_indices_iff.mpr (hin k hk))
      (by rw [indices_length, hsize]) (mem_indices_iff.mpr hpid)

theorem Holds.popsWhole (h : Holds r xs) (hdone : r.frameComplete = true)
    (hall : ∀ pid < r.expectedPacketCount, (r.packets.find? pid).isSome = true) :
    PopsWhole r xs := by
  have hpayload : ∀ i < r.expectedPacketCount.toNat,
      r.packets.find? (UInt16.ofNat i) = some (firstPayload xs (UInt16.ofNat i)) := by
    intro i hi
    obtain ⟨payload, hfind⟩ := Option.isSome_iff_exists.mp (hall _ (index_lt hi))
    rw [firstPayload, ← h.held, hfind, Option.getD_some]
  have hjoin := joinPackets_eq_some hpayload
  exact ⟨hall, by rw [hjoin]; rfl, popFrame_of_complete hdone hjoin⟩

theorem inRange_reset (r : FrameReassembler) : InRange r.reset := by
  intro hdone
  cases hdone

theorem inRange_pushPacket (hin : InRange r) (hkept : r.discards x = false)
    (hsafe : ¬ FillsOutOfRange r x) : InRange (r.pushPacket x.pkt.hdr x.pkt.payload x.clock) := by
  rw [pushPacket_of_not_discards hkept]
  cases hfind : (r.enterFrame x.pkt.hdr x.clock.startNow).packets.find? x.pkt.hdr.packetId with
  | some payload =>
    -- only the open frame can hold the index already
    have hid : x.pkt.hdr.frameId = r.currentFrameId := by
      by_contra hid
      rw [enterFrame_other hid] at hfind
      cases hfind
    rw [enterFrame_same hid] at hfind ⊢
    rwa [store_held (Option.isSome_of_eq_some hfind)]
  | none =>
    intro hdone pid hpid
    by_contra hout
    obtain ⟨hpos, hcount⟩ := frameComplete_iff.mp hdone
    rw [store_new hfind] at hpos hcount hpid hout
    rw [OrderedMap.find?_insert] at hpid
    refine hsafe ⟨hkept, hfind, hpos, hcount, pid, ?_, UInt16.not_lt.mp hout⟩
    split_ifs at hpid with hkey
    · exact Or.inl hkey
    · exact Or.inr hpid

theorem inRange_call (hin : InRange r) (c : PlainCall)
    (hsafe : ∀ x, c = .pushPacket x → ¬ FillsOutOfRange r x) : InRange (r.call c).1 := by
  rcases r.call_cases c [] with ⟨r', he, -⟩ | ⟨he, -⟩ | ⟨x, rfl, hkept, -⟩
  · rw [he]
    exact inRange_reset r'
  · rwa [he]
  · exact inRange_pushPacket hin hkept (hsafe x rfl)

theorem inRange_run {calls : List PlainCall} (h : NeverFillsOutOfRange calls) :
    InRange (machine.state new calls) :=
  machine.guarded_invariant (I := fun _ r => InRange r)
    (G := fun as c => ∀ x, c = .pushPacket x → ¬ FillsOutOfRange (machine.state new as) x)
    (inRange_reset _) (fun _ c hsafe hin => inRange_call hin c hsafe) calls h

theorem FillsOutOfRange.complete (h : FillsOutOfRange r x) :
    (r.pushPacket x.pkt.hdr x.pkt.payload x.clock).frameComplete = true ∧
      ¬ InRange (r.pushPacket x.pkt.hdr x.pkt.payload x.clock) := by
  have hdone : (r.pushPacket x.pkt.hdr x.pkt.payload x.clock).frameComplete = true := by
    rw [pushPacket_of_not_discards h.kept, store_new h.first, frameComplete_iff]
    exact ⟨h.announced, h.fills⟩
  refine ⟨hdone, fun hin => ?_⟩
  obtain ⟨pid, hstored, hout⟩ := h.outOfRange
  refine UInt16.not_lt.mpr hout ?_
  have hlt := hin hdone pid
  rw [pushPacket_of_not_discards h.kept, store_new h.first] at hlt
  refine hlt ?_
  rw [OrderedMap.find?_insert]
  split_ifs with hkey
  · rfl
  · exact hstored.resolve_left hkey

/-- Complete frames can always be popped exactly if no push fills up the count with an index
beyond it stored. -/
theorem completePopsWhole_iff (calls : List PlainCall) :
    CompletePopsWhole calls ↔ NeverFillsOutOfRange calls := by
  constructor
  · rintro h ⟨before, c⟩ hy x rfl hfills
    obtain ⟨after, rfl⟩ := mem_positions_iff.mp hy
    obtain ⟨hdone, hout⟩ := hfills.complete
    have hstate : machine.state new (before ++ [.pushPacket x]) =
        (machine.state new before).pushPacket x.pkt.hdr x.pkt.payload x.clock :=
      machine.state_append new before [.pushPacket x]
    rw [← hstate] at hdone hout
    have hpre : before ++ [.pushPacket x] <+: before ++ .pushPacket x :: after := ⟨after, by simp⟩
    have hwhole := h _ hpre hdone
    have hholds := (follows_run (before ++ [.pushPacket x])).toHolds
    exact hout (fun _ => (hholds.all_iff_inRange hdone).mp hwhole.all)
  · rintro h before ⟨after, rfl⟩ hdone
    have hbefore : NeverFillsOutOfRange before := fun y hmem =>
      h y (mem_positions_append_left hmem _)
    have hholds := (follows_run before).toHolds
    exact hholds.popsWhole hdone
      ((hholds.all_iff_inRange hdone).mpr (inRange_run hbefore hdone))

def strayIndexPush : TimedPush :=
  ⟨{ hdr := ⟨1, 5, 1, 1⟩, payload := fun _ => 7 }, ⟨0, 0⟩⟩

/-- The frame is complete, but the index 0 is missing. -/
theorem not_completePopsWhole : ¬ ∀ calls : List PlainCall, CompletePopsWhole calls := by
  intro h
  have hwhole := h [.pushPacket strayIndexPush] _ List.prefix_rfl (by decide)
  exact absurd (hwhole.all 0 (by decide)) (by decide)

end FrameReassembler

end HvFrame
