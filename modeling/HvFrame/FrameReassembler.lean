import HvFrame.UdpProtocol
import HvFrame.OrderedMaps

/-!
# The plain reassembler

`FrameReassembler` keeps the payloads of the current frame in a map from packet indices and
joins them when the frame is popped. The map is only searched, inserted into and cleared, so
the order of the `unordered_map` is of no account.
-/

namespace HvFrame

instance linearOrderUInt16 : LinearOrder UInt16 where
  le_refl := UInt16.le_refl
  le_trans _ _ _ := UInt16.le_trans
  le_antisymm _ _ := UInt16.le_antisymm
  le_total := UInt16.le_total
  lt_iff_le_not_ge a b := by
    simp only [UInt16.lt_iff_toNat_lt, UInt16.le_iff_toNat_le]
    omega
  toDecidableLE := inferInstance
  toDecidableEq := inferInstance
  toDecidableLT := inferInstance

/-- `FRAME_TIMEOUT_MS`. -/
def frameTimeoutMs : ℤ := 5000

structure FrameReassembler where
  currentFrameId : UInt32
  expectedPacketCount : UInt16
  packets : OrderedMap UInt16 (List UInt8)
  receivedPacketCount : UInt16
  frameStartTime : ℤ

/-- The two clock readings a `pushPacket` may take: by `startNewFrame`, then by `isTimeout`. -/
structure PushClock where
  startNow : ℤ
  timeoutNow : ℤ

namespace FrameReassembler

def reset (r : FrameReassembler) : FrameReassembler :=
  { r with
    currentFrameId := 0xFFFFFFFF
    expectedPacketCount := 0
    receivedPacketCount := 0
    packets := OrderedMap.empty }

/-- The constructor. A default `time_point` is the epoch of the clock. -/
def new : FrameReassembler := reset ⟨0, 0, OrderedMap.empty, 0, 0⟩

def startNewFrame (r : FrameReassembler) (frameId : UInt32) (packetCount : UInt16) (now : ℤ) :
    FrameReassembler :=
  { r.reset with
    currentFrameId := frameId
    expectedPacketCount := packetCount
    frameStartTime := now }

/-- `duration_cast` to milliseconds rounds toward zero. -/
def isTimeout (r : FrameReassembler) (now : ℤ) : Bool :=
  frameTimeoutMs < (now - r.frameStartTime).tdiv 1000000

/-- The first statement of `pushPacket`. -/
def enterFrame (r : FrameReassembler) (hdr : UdpPacketHeader) (now : ℤ) : FrameReassembler :=
  if hdr.frameId ≠ r.currentFrameId then r.startNewFrame hdr.frameId hdr.packetCount now else r

/-- The statements of `pushPacket` after the timeout check. -/
def store (r : FrameReassembler) (hdr : UdpPacketHeader) (payload : ℕ → UInt8) :
    FrameReassembler :=
  if (r.packets.find? hdr.packetId).isSome then r
  else
    { r with
      packets := r.packets.insert hdr.packetId ((List.range hdr.payloadSize.toNat).map payload)
      receivedPacketCount := r.receivedPacketCount + 1 }

def pushPacket (r : FrameReassembler) (hdr : UdpPacketHeader) (payload : ℕ → UInt8)
    (clock : PushClock) : FrameReassembler :=
  let r := r.enterFrame hdr clock.startNow
  if r.isTimeout clock.timeoutNow then r.reset else r.store hdr payload

def frameComplete (r : FrameReassembler) : Bool :=
  0 < r.expectedPacketCount && r.receivedPacketCount = r.expectedPacketCount

/-- The frame after `n` iterations of the loop of `popFrame`; `none` when an index was missing. -/
def joinPackets (packets : OrderedMap UInt16 (List UInt8)) : ℕ → Option (List UInt8)
  | 0 => some []
  | n + 1 =>
      match joinPackets packets n, packets.find? (UInt16.ofNat n) with
      | some frame, some payload => some (frame ++ payload)
      | _, _ => none

def popFrame (r : FrameReassembler) : FrameReassembler × List UInt8 :=
  if !r.frameComplete then (r, [])
  else
    match joinPackets r.packets r.expectedPacketCount.toNat with
    | none => (r.reset, [])
    | some frame => (r.reset, frame)

variable {r : FrameReassembler} {hdr : UdpPacketHeader}

/-- A loop that finds every index joins the payloads in index order. -/
theorem joinPackets_eq_some {packets : OrderedMap UInt16 (List UInt8)} {payload : ℕ → List UInt8}
    {n : ℕ} (h : ∀ i < n, packets.find? (UInt16.ofNat i) = some (payload i)) :
    joinPackets packets n = some ((List.range n).flatMap payload) := by
  induction n with
  | zero => rfl
  | succ n ih =>
    have hprev := ih (fun i hi => h i (by omega))
    rw [joinPackets, hprev, h n (by omega)]
    simp [List.range_succ]

theorem popFrame_of_complete {frame : List UInt8} (hcomplete : r.frameComplete = true)
    (h : joinPackets r.packets r.expectedPacketCount.toNat = some frame) :
    r.popFrame = (r.reset, frame) := by
  simp [popFrame, hcomplete, h]

theorem store_held (h : (r.packets.find? hdr.packetId).isSome = true) (payload : ℕ → UInt8) :
    r.store hdr payload = r := if_pos h

theorem store_new (h : r.packets.find? hdr.packetId = none) (payload : ℕ → UInt8) :
    r.store hdr payload =
      { r with
        packets := r.packets.insert hdr.packetId ((List.range hdr.payloadSize.toNat).map payload)
        receivedPacketCount := r.receivedPacketCount + 1 } :=
  if_neg (by rw [h]; exact Bool.false_ne_true)

theorem enterFrame_other (h : hdr.frameId ≠ r.currentFrameId) (now : ℤ) :
    r.enterFrame hdr now = r.startNewFrame hdr.frameId hdr.packetCount now := if_pos h

theorem enterFrame_same (h : hdr.frameId = r.currentFrameId) (now : ℤ) :
    r.enterFrame hdr now = r := if_neg (not_not_intro h)

end FrameReassembler

end HvFrame
