import HvFrame.OutputMachines
import HvFrame.PlainRefinement

/-!
# Runs of the plain reassembler

The user of `FrameReassembler` pushes packets, pops frames and resets. A history variable keeps
the pushes since the open frame was started. The packets that the reassembler holds are the
first ones of each index among them.
-/

namespace HvFrame

def TimedPush.bytes (x : TimedPush) : List UInt8 :=
  (List.range x.pkt.hdr.payloadSize.toNat).map x.pkt.payload

inductive PlainCall where
  | pushPacket (x : TimedPush)
  | popFrame
  | reset

def PlainCall.readings : PlainCall → List ℤ
  | .pushPacket x => [x.clock.startNow, x.clock.timeoutNow]
  | .popFrame => []
  | .reset => []

namespace FrameReassembler

def call (r : FrameReassembler) : PlainCall → FrameReassembler × List (List UInt8)
  | .pushPacket x => (r.pushPacket x.pkt.hdr x.pkt.payload x.clock, [])
  | .popFrame => (r.popFrame.1, [r.popFrame.2])
  | .reset => (r.reset, [])

def machine : OutputMachine FrameReassembler PlainCall (List UInt8) := ⟨call⟩

@[simp] theorem machine_step (r : FrameReassembler) (c : PlainCall) :
    machine.step r c = r.call c := rfl

def discards (r : FrameReassembler) (x : TimedPush) : Bool :=
  (r.enterFrame x.pkt.hdr x.clock.startNow).isTimeout x.clock.timeoutNow

/-- The pushes of one frame since it was started; there are none when no frame is open. A frame
is started by a packet of another frame than the open one, and it ends when it is discarded,
popped or reset. -/
def session (r : FrameReassembler) (c : PlainCall) (xs : List TimedPush) : List TimedPush :=
  match c with
  | .pushPacket x =>
      if r.discards x then []
      else if xs.head?.map (fun y => y.pkt.hdr.frameId) = some x.pkt.hdr.frameId then xs ++ [x]
      else [x]
  | .popFrame => if r.frameComplete then [] else xs
  | .reset => []

/-- The map and the counter hold the first push of every index. -/
structure Holds (r : FrameReassembler) (xs : List TimedPush) : Prop where
  held : ∀ pid, r.packets.find? pid =
    (xs.find? (fun x => x.pkt.hdr.packetId = pid)).map TimedPush.bytes
  counter : r.receivedPacketCount = UInt16.ofNat r.packets.size

/-- The pushes are those of the current frame, and without pushes no frame is open. -/
structure Follows (r : FrameReassembler) (xs : List TimedPush) : Prop extends Holds r xs where
  id : ∀ x ∈ xs, x.pkt.hdr.frameId = r.currentFrameId
  idle : xs = [] → r.currentFrameId = 0xFFFFFFFF ∧ r.expectedPacketCount = 0

variable {r : FrameReassembler} {xs : List TimedPush} {x : TimedPush}

theorem follows_reset (r : FrameReassembler) : Follows r.reset [] where
  held _ := rfl
  counter := rfl
  id _ hx := by simp at hx
  idle _ := ⟨rfl, rfl⟩

theorem holds_startNewFrame (r : FrameReassembler) (frameId : UInt32) (packetCount : UInt16)
    (now : ℤ) : Holds (r.startNewFrame frameId packetCount now) [] where
  held _ := rfl
  counter := rfl

theorem Holds.store (h : Holds r xs) (x : TimedPush) :
    Holds (r.store x.pkt.hdr x.pkt.payload) (xs ++ [x]) := by
  have hlast : ∀ pid, [x].find? (fun y => y.pkt.hdr.packetId = pid) =
      if x.pkt.hdr.packetId = pid then some x else none := by
    intro pid
    by_cases hid : x.pkt.hdr.packetId = pid <;> simp [hid]
  cases hfind : r.packets.find? x.pkt.hdr.packetId with
  | some payload =>
    rw [store_held (Option.isSome_of_eq_some hfind)]
    refine ⟨fun pid => ?_, h.counter⟩
    rw [List.find?_append, hlast, h.held]
    split_ifs with hid
    · rw [← hid]
      rw [h.held, Option.map_eq_some_iff] at hfind
      obtain ⟨y, hy, -⟩ := hfind
      rw [hy, Option.some_or]
    · rw [Option.or_none]
  | none =>
    rw [store_new hfind]
    refine ⟨fun pid => ?_, ?_⟩
    · simp only [OrderedMap.find?_insert]
      rw [List.find?_append, hlast, h.held]
      split_ifs with hid
      · rw [← hid]
        rw [h.held, Option.map_eq_none_iff] at hfind
        rw [hfind, Option.none_or, Option.map_some, TimedPush.bytes]
      · rw [Option.or_none]
    · simp only [OrderedMap.size_insert, hfind, Option.isNone_none, if_true, h.counter]
      exact (UInt16.ofNat_add _ _).symm

theorem Follows.session_pushPacket (h : Follows r xs) (x : TimedPush) :
    r.session (.pushPacket x) xs =
      if r.discards x then []
      else (if x.pkt.hdr.frameId = r.currentFrameId then xs else []) ++ [x] := by
  simp only [session]
  cases xs with
  | nil => simp
  | cons y ys =>
    have hid := h.id y List.mem_cons_self
    simp only [List.head?_cons, Option.map_some, Option.some_inj, hid, eq_comm]
    split_ifs <;> simp

theorem Follows.enterFrame (h : Follows r xs) (x : TimedPush) :
    Holds (r.enterFrame x.pkt.hdr x.clock.startNow)
        (if x.pkt.hdr.frameId = r.currentFrameId then xs else []) ∧
      (r.enterFrame x.pkt.hdr x.clock.startNow).currentFrameId = x.pkt.hdr.frameId := by
  by_cases hid : x.pkt.hdr.frameId = r.currentFrameId
  · rw [enterFrame_same hid, if_pos hid]
    exact ⟨h.toHolds, hid.symm⟩
  · rw [enterFrame_other hid, if_neg hid]
    exact ⟨holds_startNewFrame r _ _ _, rfl⟩

@[simp] theorem store_currentFrameId (r : FrameReassembler) (hdr : UdpPacketHeader)
    (payload : ℕ → UInt8) : (r.store hdr payload).currentFrameId = r.currentFrameId := by
  rw [store]
  split_ifs <;> rfl

@[simp] theorem store_expectedPacketCount (r : FrameReassembler) (hdr : UdpPacketHeader)
    (payload : ℕ → UInt8) : (r.store hdr payload).expectedPacketCount = r.expectedPacketCount := by
  rw [store]
  split_ifs <;> rfl

@[simp] theorem store_frameStartTime (r : FrameReassembler) (hdr : UdpPacketHeader)
    (payload : ℕ → UInt8) : (r.store hdr payload).frameStartTime = r.frameStartTime := by
  rw [store]
  split_ifs <;> rfl

theorem pushPacket_of_discards (h : r.discards x = true) :
    r.pushPacket x.pkt.hdr x.pkt.payload x.clock =
      (r.enterFrame x.pkt.hdr x.clock.startNow).reset := if_pos h

theorem pushPacket_of_not_discards (h : r.discards x = false) :
    r.pushPacket x.pkt.hdr x.pkt.payload x.clock =
      (r.enterFrame x.pkt.hdr x.clock.startNow).store x.pkt.hdr x.pkt.payload :=
  if_neg (by simpa [discards] using h)

theorem popFrame_of_not_complete (h : r.frameComplete = false) : r.popFrame = (r, []) := by
  simp [popFrame, h]

theorem popFrame_fst_of_complete (h : r.frameComplete = true) : r.popFrame.1 = r.reset := by
  cases hjoin : joinPackets r.packets r.expectedPacketCount.toNat <;> simp [popFrame, h, hjoin]

/-- A call leaves a reset reassembler and no open frame, leaves both as they are, or stores a
packet. -/
theorem call_cases (r : FrameReassembler) (c : PlainCall) (xs : List TimedPush) :
    (∃ r', (r.call c).1 = FrameReassembler.reset r' ∧ r.session c xs = []) ∨
      ((r.call c).1 = r ∧ r.session c xs = xs) ∨
      ∃ x, c = .pushPacket x ∧ r.discards x = false ∧
        (r.call c).1 = (r.enterFrame x.pkt.hdr x.clock.startNow).store x.pkt.hdr x.pkt.payload := by
  cases c with
  | reset => exact Or.inl ⟨r, rfl, rfl⟩
  | popFrame =>
    cases hdone : r.frameComplete with
    | true => exact Or.inl ⟨r, popFrame_fst_of_complete hdone, if_pos hdone⟩
    | false =>
      have hpop : r.popFrame.1 = r := by rw [popFrame_of_not_complete hdone]
      have hsession : ¬ r.frameComplete = true := by rw [hdone]; exact Bool.false_ne_true
      exact Or.inr (Or.inl ⟨hpop, if_neg hsession⟩)
  | pushPacket x =>
    cases hdiscards : r.discards x with
    | true => exact Or.inl ⟨_, pushPacket_of_discards hdiscards, if_pos hdiscards⟩
    | false => exact Or.inr (Or.inr ⟨x, rfl, hdiscards, pushPacket_of_not_discards hdiscards⟩)

theorem Follows.call (h : Follows r xs) (c : PlainCall) :
    Follows (r.call c).1 (r.session c xs) := by
  rcases r.call_cases c xs with ⟨r', he, hsession⟩ | ⟨he, hsession⟩ | ⟨x, rfl, hkept, he⟩
  · rw [he, hsession]
    exact follows_reset r'
  · rw [he, hsession]
    exact h
  · obtain ⟨hholds, hid⟩ := h.enterFrame x
    rw [he, h.session_pushPacket, hkept, if_neg Bool.false_ne_true]
    refine ⟨hholds.store x, fun y hy => ?_, fun hnil => by simp at hnil⟩
    rw [store_currentFrameId, hid]
    rcases List.mem_append.mp hy with hy | hy
    · split_ifs at hy with hsame
      · exact (h.id y hy).trans hsame.symm
      · cases hy
    · rw [List.mem_singleton.mp hy]

def openFrame (calls : List PlainCall) : List TimedPush := machine.past session new [] calls

theorem openFrame_concat (calls : List PlainCall) (c : PlainCall) :
    openFrame (calls ++ [c]) = (machine.state new calls).session c (openFrame calls) :=
  machine.past_concat session new [] calls c

theorem follows_run (calls : List PlainCall) :
    Follows (machine.state new calls) (openFrame calls) :=
  machine.past_invariant session (I := fun xs r => Follows r xs) (G := fun _ _ => True)
    (follows_reset _) (fun _ c _ h => h.call c) calls (fun _ _ => trivial)

end FrameReassembler

end HvFrame
