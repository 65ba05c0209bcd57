import MpQuic.Packing.Defs

namespace MpQuic.Packing

open MpQuic.Library MpQuic.Protocol MpQuic.Wire List

inductive Call where
  | packPacket
  | packPacketSTMS (gap : Int)
  | packPacketRedundancy (isfirst : Bool)
  deriving DecidableEq, Repr

def Packer.pack (call : Call) (crypto : CryptoSetup) (streams : Streams) (random : Option Nat)
    (p : Packer) (store : Store) (pth : Path) : Packed :=
  match call with
  | .packPacket => p.packPacket crypto streams random store pth
  | .packPacketSTMS gap => p.packPacketSTMS crypto streams gap random store pth
  | .packPacketRedundancy isfirst =>
    p.packPacketRedundancy crypto streams isfirst random store pth

def controlsOf (frames : List (Frame Nat)) : List ControlFrame :=
  frames.filterMap fun frame =>
    match frame with
    | .stream _ => none
    | .control frame => some frame

def carried : Option PackedPacket → List ControlFrame
  | none => []
  | some packet => controlsOf packet.frames

-- A STOP_WAITING frame gets its two numbers while it waits, so that frames are
-- compared without them.
def bare : ControlFrame → ControlFrame
  | .stopWaiting f => .stopWaiting { f with packetNumber := 0, packetNumberLen := 0 }
  | f => f

def Packer.queued (p : Packer) (pathID : Nat) : List ControlFrame :=
  p.pending pathID ++ p.controlFrames

-- Every frame that was queued is in the packet or still queued, also if it was
-- queued more than once.
def Keeps (before after : Packer) (pathID : Nat) (packet : Option PackedPacket) : Prop :=
  ((before.queued pathID).map bare).Subperm
    ((carried packet ++ after.queued pathID).map bare)

instance (before after : Packer) (pathID : Nat) (packet : Option PackedPacket) :
    Decidable (Keeps before after pathID packet) :=
  List.decidableSubperm _ _

def Packer.composeFirst (p : Packer) (crypto : CryptoSetup) (streams : Streams) (store : Store)
    (pth : Path) (publicHeaderLength : Nat) : Composed :=
  (p.numberStopWaiting pth.pathID (p.getPublicHeader crypto crypto.level pth)).composeNextPacket
    streams store (Packer.maxSize publicHeaderLength) (p.canSendData crypto.level) pth.pathID

def Packer.RepeatSafe (p : Packer) (pathID : Nat) : Prop :=
  p.firstpayloadFrames = [] ∨
    p.firstpayloadFrames.length = 1 ∧ p.stopWaiting pathID ≠ none ∨
    p.pending pathID = []

section Lists

@[simp] theorem controlsOf_append (first second : List (Frame Nat)) :
    controlsOf (first ++ second) = controlsOf first ++ controlsOf second :=
  filterMap_append

@[simp] theorem controlsOf_map_control (frames : List ControlFrame) :
    controlsOf (frames.map Frame.control) = frames := by
  induction frames with
  | nil => rfl
  | cons frame rest ih => exact congrArg (frame :: ·) ih

@[simp] theorem controlsOf_map_stream (refs : List Nat) :
    controlsOf (refs.map Frame.stream) = [] := by
  induction refs with
  | nil => rfl
  | cons ref rest ih => exact ih

theorem mem_streamFrames {frames : List (Frame Nat)} {ref : Nat} :
    ref ∈ Packer.streamFrames frames ↔ .stream ref ∈ frames := by
  unfold Packer.streamFrames
  rw [mem_filterMap]
  constructor
  · rintro ⟨frame, hframe, heq⟩
    cases frame with
    | stream other =>
      cases heq
      exact hframe
    | control frame => cases heq
  · intro hframe
    exact ⟨_, hframe, rfl⟩

theorem append_subperm_self_iff {α : Type*} (first common : List α) :
    (first ++ common).Subperm common ↔ first = [] := by
  constructor
  · intro h
    have hlen := h.length_le
    rw [length_append] at hlen
    exact eq_nil_of_length_eq_zero (by omega)
  · rintro rfl
    exact List.Subperm.refl _

end Lists

section Numbering

variable (p : Packer) (pathID : Nat) (publicHeader : PublicHeader)

theorem numberStopWaiting_controlFrames :
    (p.numberStopWaiting pathID publicHeader).controlFrames = p.controlFrames := by
  unfold Packer.numberStopWaiting
  cases p.stopWaiting pathID <;> rfl

theorem numberStopWaiting_firstpayloadFrames :
    (p.numberStopWaiting pathID publicHeader).firstpayloadFrames = p.firstpayloadFrames := by
  unfold Packer.numberStopWaiting
  cases p.stopWaiting pathID <;> rfl

theorem numberStopWaiting_stopWaiting :
    (p.numberStopWaiting pathID publicHeader).stopWaiting pathID = none ↔
      p.stopWaiting pathID = none := by
  unfold Packer.numberStopWaiting
  cases h : p.stopWaiting pathID with
  | none => simp [h]
  | some f => simp

theorem numberStopWaiting_pending :
    ((p.numberStopWaiting pathID publicHeader).pending pathID).map bare =
      (p.pending pathID).map bare := by
  unfold Packer.numberStopWaiting
  cases h : p.stopWaiting pathID with
  | none => rfl
  | some f => simp [Packer.pending, h, bare]

theorem numberStopWaiting_queued :
    ((p.numberStopWaiting pathID publicHeader).queued pathID).map bare =
      (p.queued pathID).map bare := by
  unfold Packer.queued
  rw [map_append, numberStopWaiting_pending, numberStopWaiting_controlFrames,
    ← map_append]

theorem numberStopWaiting_pending_eq_nil :
    (p.numberStopWaiting pathID publicHeader).pending pathID = [] ↔ p.pending pathID = [] := by
  have h := congrArg List.length (numberStopWaiting_pending p pathID publicHeader)
  rw [length_map, length_map] at h
  rw [← length_eq_zero_iff, ← length_eq_zero_iff, h]

theorem numberStopWaiting_repeatSafe :
    (p.numberStopWaiting pathID publicHeader).RepeatSafe pathID ↔ p.RepeatSafe pathID := by
  unfold Packer.RepeatSafe
  rw [numberStopWaiting_pending_eq_nil, numberStopWaiting_firstpayloadFrames, ne_eq,
    numberStopWaiting_stopWaiting]

theorem numberStopWaiting_canSendData (encLevel : EncryptionLevel) :
    (p.numberStopWaiting pathID publicHeader).canSendData encLevel = p.canSendData encLevel := by
  unfold Packer.numberStopWaiting
  cases p.stopWaiting pathID <;> rfl

end Numbering

theorem pending_clearPending (p : Packer) (pathID : Nat) :
    (p.clearPending pathID).pending pathID = [] := by
  simp [Packer.pending, Packer.clearPending]

theorem takeControlFrames_append (maxFrameSize : Nat) (frames : List ControlFrame)
    (payloadLength : Nat) :
    (takeControlFrames maxFrameSize frames payloadLength).taken ++
      (takeControlFrames maxFrameSize frames payloadLength).left = frames := by
  induction frames generalizing payloadLength with
  | nil => rfl
  | cons frame rest ih =>
    unfold takeControlFrames
    cases frame.minLength with
    | error err => rfl
    | ok minLength =>
      dsimp only
      by_cases h : payloadLength + minLength > maxFrameSize
      · rw [if_pos h]
        rfl
      · rw [if_neg h]
        exact congrArg (frame :: ·) (ih (payloadLength + minLength))

structure ComposedFrom (p : Packer) (pathID : Nat) (composed : Composed)
    (payloadFrames : List (Frame Nat)) where
  taken : List ControlFrame
  left : List ControlFrame
  refs : List Nat
  payload : payloadFrames = (p.pending pathID ++ taken).map Frame.control ++ refs.map Frame.stream
  split : p.controlFrames.reverse = taken ++ left
  queue : composed.packer.controlFrames =
    left.reverse ++ composed.blocked.map ControlFrame.blocked
  stopWaiting : composed.packer.stopWaiting = p.stopWaiting
  ackFrame : composed.packer.ackFrame = p.ackFrame

variable {payloadFrames : List (Frame Nat)} {pathID : Nat} {p : Packer}

theorem composeWith_frames {popNormal : Nat → Handout} {store : Store} {maxFrameSize : Nat}
    {canSendStreamFrames : Bool}
    (h : (p.composeWith popNormal store maxFrameSize canSendStreamFrames pathID).result =
      .ok payloadFrames) :
    let composed := p.composeWith popNormal store maxFrameSize canSendStreamFrames pathID
    ∃ payloadLength control refs, Packer.totalMinLength (p.pending pathID) = .ok payloadLength ∧
      takeControlFrames maxFrameSize p.controlFrames.reverse payloadLength = control ∧
      control.payloadLength ≤ maxFrameSize ∧
      payloadFrames =
        (p.pending pathID ++ control.taken).map Frame.control ++ refs.map Frame.stream ∧
      (refs = [] ∨
        refs = (popStreamFrames popNormal p.streamFramer store
          (maxFrameSize + 2 - control.payloadLength)).frames ∧
        composed.store = clearLastDataLen (popStreamFrames popNormal p.streamFramer store
          (maxFrameSize + 2 - control.payloadLength)).store refs) ∧
      composed.packer.controlFrames =
        control.left.reverse ++ composed.blocked.map ControlFrame.blocked ∧
      composed.packer.stopWaiting = p.stopWaiting ∧ composed.packer.ackFrame = p.ackFrame := by
  unfold Packer.composeWith at h ⊢
  cases hm : Packer.totalMinLength (p.pending pathID) with
  | error err => simp [hm] at h
  | ok payloadLength =>
    simp only [hm] at h ⊢
    generalize hcontrol : takeControlFrames maxFrameSize p.controlFrames.reverse payloadLength =
      control at h ⊢
    cases he : control.err with
    | some err => simp [he] at h
    | none =>
      simp only [he] at h ⊢
      by_cases hl : control.payloadLength > maxFrameSize
      · simp [hl] at h
      · simp only [if_neg hl] at h ⊢
        cases canSendStreamFrames with
        | false =>
          simp only [Bool.false_eq_true, if_false, Except.ok.injEq] at h ⊢
          refine ⟨payloadLength, control, [], rfl, hcontrol, Nat.le_of_not_gt hl, ?_,
            Or.inl rfl, (append_nil _).symm, trivial, trivial⟩
          rw [← h, map_nil, append_nil]
        | true =>
          simp only [if_true, Except.ok.injEq] at h ⊢
          exact ⟨payloadLength, control, _, rfl, hcontrol, Nat.le_of_not_gt hl, h.symm,
            Or.inr ⟨rfl, rfl⟩, rfl, trivial, trivial⟩

theorem composeWith_ok (popNormal : Nat → Handout) (p : Packer) (store : Store)
    (maxFrameSize : Nat) (canSendStreamFrames : Bool) (pathID : Nat)
    (h : (p.composeWith popNormal store maxFrameSize canSendStreamFrames pathID).result =
      .ok payloadFrames) :
    Nonempty (ComposedFrom p pathID
      (p.composeWith popNormal store maxFrameSize canSendStreamFrames pathID) payloadFrames) := by
  obtain ⟨payloadLength, control, refs, -, rfl, -, hpayload, -, hqueue, hstop, hack⟩ :=
    composeWith_frames h
  exact ⟨{
    taken := _
    left := _
    refs := refs
    payload := hpayload
    split := (takeControlFrames_append _ _ _).symm
    queue := hqueue
    stopWaiting := hstop
    ackFrame := hack }⟩

namespace ComposedFrom

variable {p : Packer} {pathID : Nat} {composed : Composed} {payloadFrames : List (Frame Nat)}

theorem controls (c : ComposedFrom p pathID composed payloadFrames) :
    controlsOf payloadFrames = p.pending pathID ++ c.taken := by
  apply (congrArg controlsOf c.payload).trans
  simp

theorem pending (c : ComposedFrom p pathID composed payloadFrames) :
    composed.packer.pending pathID = p.pending pathID := by
  unfold Packer.pending
  rw [c.stopWaiting, c.ackFrame]

theorem queued_perm (c : ComposedFrom p pathID composed payloadFrames) :
    (p.queued pathID).Perm (controlsOf payloadFrames ++ c.left.reverse) := by
  rw [c.controls, append_assoc]
  unfold Packer.queued
  apply List.Perm.append_left
  calc p.controlFrames
      = (c.taken ++ c.left).reverse := by rw [← c.split, reverse_reverse]
    _ = c.left.reverse ++ c.taken.reverse := reverse_append
    List.Perm _ (c.taken.reverse ++ c.left.reverse) := perm_append_comm
    List.Perm _ (c.taken ++ c.left.reverse) := (reverse_perm c.taken).append_right _

variable {after : Packer}

theorem keeps_sent (c : ComposedFrom p pathID composed payloadFrames) {packet : PackedPacket}
    (hq : after.controlFrames = composed.packer.controlFrames) (hp : after.pending pathID = [])
    (hf : packet.frames = payloadFrames) : Keeps p after pathID (some packet) := by
  show List.Subperm _ ((controlsOf packet.frames ++ after.queued pathID).map bare)
  unfold Packer.queued
  rw [hf, hp, hq, c.queue, nil_append]
  apply List.Subperm.trans (c.queued_perm.map bare).subperm
  apply List.Sublist.subperm
  apply List.Sublist.map
  rw [← append_assoc]
  exact sublist_append_left _ _

theorem keeps_lost_iff (c : ComposedFrom p pathID composed payloadFrames)
    (hq : after.controlFrames = composed.packer.controlFrames) (hp : after.pending pathID = []) :
    Keeps p after pathID none ↔
      ((controlsOf payloadFrames).map bare).Subperm
        ((composed.blocked.map ControlFrame.blocked).map bare) := by
  have hafter : (carried none ++ after.queued pathID).map bare =
      c.left.reverse.map bare ++ (composed.blocked.map ControlFrame.blocked).map bare := by
    unfold carried Packer.queued
    rw [hp, hq, c.queue, nil_append, nil_append, map_append]
  have hbefore : ((p.queued pathID).map bare).Perm
      ((controlsOf payloadFrames).map bare ++ c.left.reverse.map bare) := by
    rw [← map_append]
    exact c.queued_perm.map bare
  unfold Keeps
  rw [hafter, hbefore.subperm_right, perm_append_comm.subperm_left]
  exact subperm_append_right _

theorem keeps_unsent (c : ComposedFrom p pathID composed payloadFrames) (ht : c.taken = []) :
    Keeps p composed.packer pathID none := by
  have hleft : c.left.reverse = p.controlFrames := by
    have hsplit := c.split
    rw [ht, nil_append] at hsplit
    rw [← hsplit, reverse_reverse]
  unfold Keeps carried Packer.queued
  rw [nil_append, c.pending, c.queue, hleft, ← append_assoc]
  apply List.Sublist.subperm
  apply List.Sublist.map
  exact sublist_append_left _ _

end ComposedFrom

theorem Keeps.of_same {before after : Packer} (packet : Option PackedPacket)
    (h : (after.queued pathID).map bare = (before.queued pathID).map bare) :
    Keeps before after pathID packet := by
  unfold Keeps
  rw [map_append, h]
  exact (sublist_append_right _ _).subperm

theorem keeps_numbered (p after : Packer) (pathID : Nat) (publicHeader : PublicHeader)
    (packet : Option PackedPacket) :
    Keeps (p.numberStopWaiting pathID publicHeader) after pathID packet ↔
      Keeps p after pathID packet := by
  unfold Keeps
  rw [numberStopWaiting_queued]

section Sealing

variable {p : Packer} {store : Store} {publicHeader : PublicHeader}
  {payloadFrames : List (Frame Nat)} {encLevel : EncryptionLevel} {random : Option Nat} {pth : Path}
  {packet : Option PackedPacket}

theorem sealPayload_ok
    (h : (p.sealPayload store publicHeader payloadFrames encLevel random pth).result = .ok packet) :
    let after := (p.sealPayload store publicHeader payloadFrames encLevel random pth).packer
    payloadFrames = [] ∧ after = p ∧ packet = none ∨
    (payloadFrames.length = 1 ∧ p.stopWaiting pth.pathID ≠ none) ∧ after = p ∧ packet = none ∨
    (payloadFrames ≠ [] ∧ ¬(payloadFrames.length = 1 ∧ p.stopWaiting pth.pathID ≠ none)) ∧
      after = p.clearPending pth.pathID ∧
      ∃ raw, packet = some ⟨publicHeader.packetNumber, raw, payloadFrames, encLevel⟩ ∧
        ((p.clearPending pth.pathID).writeAndSealPacket store publicHeader payloadFrames random
          pth).2 = .ok raw := by
  unfold Packer.sealPayload at h ⊢
  by_cases hempty : payloadFrames.length = 0
  · simp only [if_pos hempty, Except.ok.injEq] at h ⊢
    exact Or.inl ⟨length_eq_zero_iff.mp hempty, trivial, h.symm⟩
  · simp only [if_neg hempty] at h ⊢
    by_cases halone : payloadFrames.length = 1 ∧ p.stopWaiting pth.pathID ≠ none
    · simp only [if_pos halone, Except.ok.injEq] at h ⊢
      exact Or.inr (Or.inl ⟨halone, trivial, h.symm⟩)
    · simp only [if_neg halone] at h ⊢
      refine Or.inr (Or.inr ⟨⟨fun hnil => hempty (by rw [hnil]; rfl), halone⟩, trivial, ?_⟩)
      cases hw : ((p.clearPending pth.pathID).writeAndSealPacket store publicHeader payloadFrames
          random pth).2 with
      | error err => simp [hw, Except.map] at h
      | ok raw =>
        rw [hw] at h
        simp only [Except.map, Except.ok.injEq] at h
        exact ⟨raw, h.symm, rfl⟩

theorem writeAndSealPacket_small {payload : List UInt8}
    (hp : writeFrames p.version store payloadFrames = .ok payload) (hlen : payload.length ≤ 1000) :
    (p.writeAndSealPacket store publicHeader payloadFrames random pth).2 ≠ .ok none := by
  unfold Packer.writeAndSealPacket
  cases hh : publicHeader.write p.version p.perspective with
  | error err => simp
  | ok header =>
    have hheader := PublicHeader.length_write_le hh
    have hfits : ¬header.length + payload.length + overhead > maxPacketSize := by
      unfold overhead maxPacketSize
      omega
    simp only [hp, if_neg hfits]
    split <;> simp

end Sealing

theorem dropUnsealed_ok {packed : Packed} {packet : Option PackedPacket}
    (h : (Packer.dropUnsealed packed).result = .ok packet) :
    ∃ whole, packed.result = .ok whole ∧ packet = whole.filter fun whole => whole.raw.isSome := by
  unfold Packer.dropUnsealed at h
  cases hr : packed.result with
  | error err => simp [hr, Except.map] at h
  | ok whole =>
    simp only [hr, Except.map, Except.ok.injEq] at h
    exact ⟨whole, rfl, h.symm⟩

theorem pending_ne_nil (h : p.stopWaiting pathID ≠ none) : p.pending pathID ≠ [] := by
  unfold Packer.pending
  obtain ⟨f, hf⟩ := Option.ne_none_iff_exists'.mp h
  simp [hf]

theorem ComposedFrom.taken_eq_nil {composed : Composed}
    (c : ComposedFrom p pathID composed payloadFrames)
    (h : payloadFrames = [] ∨ payloadFrames.length = 1 ∧ p.stopWaiting pathID ≠ none) :
    c.taken = [] := by
  have hlen := congrArg List.length c.payload
  simp only [length_append, length_map] at hlen
  apply eq_nil_of_length_eq_zero
  rcases h with hnil | ⟨hone, hsw⟩
  · have hzero := congrArg List.length hnil
    rw [length_nil] at hzero
    omega
  · have hpos := length_pos_iff.mpr (pending_ne_nil hsw)
    omega

section Branches

variable {p : Packer} {store : Store} {publicHeader : PublicHeader} {encLevel : EncryptionLevel}
  {random : Option Nat} {pth : Path} {packet : Option PackedPacket}

variable {composed : Composed}

theorem packComposed_keeps
    (hc : ∀ payloadFrames, composed.result = .ok payloadFrames →
      Nonempty (ComposedFrom p pth.pathID composed payloadFrames))
    (h : (Packer.packComposed composed publicHeader encLevel random pth).result = .ok packet) :
    Keeps p (Packer.packComposed composed publicHeader encLevel random pth).packer pth.pathID
      packet := by
  unfold Packer.packComposed at h ⊢
  cases hr : composed.result with
  | error err => simp [hr] at h
  | ok payloadFrames =>
    simp only [hr] at h ⊢
    obtain ⟨c⟩ := hc payloadFrames hr
    rcases sealPayload_ok h with ⟨hnil, hp, rfl⟩ | ⟨halone, hp, rfl⟩ | ⟨_, hp, raw, rfl, _⟩
    · rw [hp]
      exact c.keeps_unsent (c.taken_eq_nil (Or.inl hnil))
    · rw [hp]
      rw [c.stopWaiting] at halone
      exact c.keeps_unsent (c.taken_eq_nil (Or.inr halone))
    · rw [hp]
      exact c.keeps_sent rfl (pending_clearPending _ _) rfl

theorem controlFrames_of_isPing (h : Packer.isPing p.controlFrames = true) :
    p.controlFrames = .ping :: p.controlFrames.drop 1 := by
  cases hf : p.controlFrames with
  | nil => simp [hf, Packer.isPing] at h
  | cons frame rest =>
    cases frame with
    | ping => rfl
    | _ => simp [hf, Packer.isPing] at h

theorem packPing_keeps_iff (hping : Packer.isPing p.controlFrames = true)
    (h : (p.packPing store publicHeader encLevel random pth).result = .ok packet) :
    Keeps p (p.packPing store publicHeader encLevel random pth).packer pth.pathID packet ↔
      p.pending pth.pathID = [] := by
  unfold Packer.packPing at h ⊢
  have hqueued : p.queued pth.pathID =
      p.pending pth.pathID ++ .ping :: p.controlFrames.drop 1 := by
    unfold Packer.queued
    rw [← controlFrames_of_isPing hping]
  rcases sealPayload_ok h with ⟨hnil, _, _⟩ | ⟨⟨_, hsw⟩, hp, rfl⟩ | ⟨_, hp, raw, rfl, _⟩
  · cases hnil
  · have hpending := pending_ne_nil hsw
    refine ⟨fun hkeeps => ?_, fun hnil => absurd hnil hpending⟩
    have hlen := hkeeps.length_le
    rw [hp, hqueued] at hlen
    simp [carried, Packer.queued, Packer.pending] at hlen
  · rw [hp]
    unfold Keeps
    rw [hqueued, map_append]
    show List.Subperm _ ((controlsOf [Frame.control .ping] ++ Packer.queued _ _).map bare) ↔ _
    unfold Packer.queued
    rw [pending_clearPending]
    exact (append_subperm_self_iff _ _).trans map_eq_nil_iff

theorem dropUnsealed_packPing
    (h : (Packer.dropUnsealed (p.packPing store publicHeader encLevel random pth)).result =
      .ok packet) :
    (p.packPing store publicHeader encLevel random pth).result = .ok packet := by
  obtain ⟨whole, hr, rfl⟩ := dropUnsealed_ok h
  rw [hr]
  unfold Packer.packPing at hr
  rcases sealPayload_ok hr with ⟨_, _, rfl⟩ | ⟨_, _, rfl⟩ | ⟨_, _, raw, rfl, hw⟩
  · rfl
  · rfl
  · cases raw with
    | some raw => rfl
    | none => exact absurd hw (writeAndSealPacket_small rfl (by simp))

theorem repeat_keeps_iff
    (h : (Packer.dropUnsealed (Packer.packComposed
      ⟨p, store, [], .ok (p.firstpayloadFrames.map Frame.stream)⟩ publicHeader encLevel random
      pth)).result = .ok packet) :
    Keeps p (Packer.dropUnsealed (Packer.packComposed
      ⟨p, store, [], .ok (p.firstpayloadFrames.map Frame.stream)⟩ publicHeader encLevel random
      pth)).packer pth.pathID packet ↔ p.RepeatSafe pth.pathID := by
  obtain ⟨whole, hr, rfl⟩ := dropUnsealed_ok h
  show Keeps p (Packer.packComposed _ publicHeader encLevel random pth).packer _ _ ↔ _
  unfold Packer.packComposed at hr ⊢
  simp only at hr ⊢
  rcases sealPayload_ok hr with ⟨hnil, hp, rfl⟩ | ⟨halone, hp, rfl⟩ | ⟨hsent, hp, raw, rfl, _⟩
  · rw [hp]
    exact iff_of_true (Keeps.of_same _ rfl) (Or.inl (map_eq_nil_iff.mp hnil))
  · rw [hp]
    rw [length_map] at halone
    exact iff_of_true (Keeps.of_same _ rfl) (Or.inr (Or.inl halone))
  · have hcarried : carried ((some ⟨publicHeader.packetNumber, raw,
        p.firstpayloadFrames.map Frame.stream, encLevel⟩ : Option PackedPacket).filter
          fun whole => whole.raw.isSome) = [] := by
      cases raw with
      | none => rfl
      | some raw => exact controlsOf_map_stream p.firstpayloadFrames
    have hkeeps : Keeps p (p.clearPending pth.pathID) pth.pathID
        ((some ⟨publicHeader.packetNumber, raw, p.firstpayloadFrames.map Frame.stream,
          encLevel⟩ : Option PackedPacket).filter fun whole => whole.raw.isSome) ↔
        p.pending pth.pathID = [] := by
      unfold Keeps
      rw [hcarried]
      unfold Packer.queued
      rw [pending_clearPending, map_append]
      exact (append_subperm_self_iff _ _).trans map_eq_nil_iff
    rw [hp, hkeeps]
    rw [length_map, ne_eq, map_eq_nil_iff] at hsent
    constructor
    · intro hnil
      exact Or.inr (Or.inr hnil)
    · rintro (hnil | halone | hnil)
      · exact absurd hnil hsent.1
      · exact absurd halone hsent.2
      · exact hnil

theorem length_write_stopWaiting_le {version : Int} {f : StopWaitingFrame} {bytes : List UInt8}
    (h : f.write version = .ok bytes) : bytes.length ≤ 7 := by
  unfold StopWaitingFrame.write at h
  split at h
  · cases h
  split at h
  · cases h
  split at h
  next hlen =>
    cases h
    simp only [length_append, length_cons, length_nil, ByteOrder.length_bytes]
    omega
  · cases h

theorem ComposedFrom.alone_sealed {payloadFrames : List (Frame Nat)}
    (c : ComposedFrom p pth.pathID composed payloadFrames)
    (h : payloadFrames.length = 1 ∧ p.stopWaiting pth.pathID ≠ none) :
    (composed.packer.writeAndSealPacket composed.store publicHeader payloadFrames random pth).2 ≠
      .ok none := by
  obtain ⟨f, hf⟩ := Option.ne_none_iff_exists'.mp h.2
  have hpayload : payloadFrames = [Frame.control (.stopWaiting f)] := by
    have hpay := c.payload
    simp only [Packer.pending, hf, Option.map_some, Option.toList_some, cons_append,
      nil_append, map_cons] at hpay
    obtain ⟨frame, hone⟩ := length_eq_one_iff.mp h.1
    rw [hone, (List.cons.inj (hone.symm.trans hpay)).1]
  rw [hpayload]
  cases hw : f.write composed.packer.version with
  | ok bytes =>
    have hframes : writeFrames composed.packer.version composed.store
        [Frame.control (.stopWaiting f)] = .ok (bytes ++ []) := by
      simp only [writeFrames, writeFrame, ControlFrame.write, hw]
    apply writeAndSealPacket_small hframes
    rw [append_nil]
    exact (length_write_stopWaiting_le hw).trans (by omega)
  | error err =>
    unfold Packer.writeAndSealPacket
    cases publicHeader.write composed.packer.version composed.packer.perspective with
    | error err => simp
    | ok header => simp [writeFrames, writeFrame, ControlFrame.write, hw]

theorem first_keeps_iff
    (hc : ∀ payloadFrames, composed.result = .ok payloadFrames →
      Nonempty (ComposedFrom p pth.pathID composed payloadFrames))
    (h : (Packer.dropUnsealed (Packer.packComposed composed publicHeader encLevel random
      pth)).result = .ok packet) :
    Keeps p (Packer.dropUnsealed (Packer.packComposed composed publicHeader encLevel random
      pth)).packer pth.pathID packet ↔
      ∀ payloadFrames, composed.result = .ok payloadFrames →
        (composed.packer.writeAndSealPacket composed.store publicHeader payloadFrames random
          pth).2 = .ok none →
        ((controlsOf payloadFrames).map bare).Subperm
          ((composed.blocked.map ControlFrame.blocked).map bare) := by
  obtain ⟨whole, hr, rfl⟩ := dropUnsealed_ok h
  show Keeps p (Packer.packComposed _ publicHeader encLevel random pth).packer _ _ ↔ _
  unfold Packer.packComposed at hr ⊢
  cases hres : composed.result with
  | error err => simp [hres] at hr
  | ok payloadFrames =>
    simp only [hres, Except.ok.injEq, forall_eq'] at hr ⊢
    obtain ⟨c⟩ := hc payloadFrames hres
    rcases sealPayload_ok hr with ⟨hnil, hp, rfl⟩ | ⟨halone, hp, rfl⟩ | ⟨_, hp, raw, rfl, hw⟩
    · rw [hp]
      refine iff_of_true (c.keeps_unsent (c.taken_eq_nil (Or.inl hnil))) fun _ => ?_
      rw [hnil]
      exact nil_subperm
    · rw [hp]
      rw [c.stopWaiting] at halone
      refine iff_of_true (c.keeps_unsent (c.taken_eq_nil (Or.inr halone))) fun hnone => ?_
      exact absurd hnone (c.alone_sealed halone)
    · rw [hp]
      change (composed.packer.writeAndSealPacket composed.store publicHeader payloadFrames
        random pth).2 = .ok raw at hw
      cases raw with
      | some raw =>
        refine iff_of_true (c.keeps_sent rfl (pending_clearPending _ _) rfl) fun hnone => ?_
        rw [hw] at hnone
        cases hnone
      | none =>
        have hlost : Keeps p (composed.packer.clearPending pth.pathID) pth.pathID none ↔ _ :=
          c.keeps_lost_iff rfl (pending_clearPending _ _)
        exact hlost.trans ⟨fun hsub _ => hsub, fun hsub => hsub hw⟩

end Branches

theorem composeRedundancy_first {streams : Streams} {store : Store}
    {maxFrameSize : Nat} {canSendStreamFrames : Bool}
    (h : (p.composeRedundancy streams true store maxFrameSize canSendStreamFrames pathID).result =
      .ok payloadFrames) :
    Nonempty (ComposedFrom p pathID
      (p.composeRedundancy streams true store maxFrameSize canSendStreamFrames pathID)
      payloadFrames) := by
  obtain ⟨c⟩ := composeWith_ok streams.maybePopNormalFrames p store maxFrameSize
    canSendStreamFrames pathID h
  exact ⟨{
    taken := c.taken
    left := c.left
    refs := c.refs
    payload := c.payload
    split := c.split
    queue := c.queue
    stopWaiting := c.stopWaiting
    ackFrame := c.ackFrame }⟩

theorem packCryptoPacket_packer {crypto : CryptoSetup} {streams : Streams} {random : Option Nat}
    {store : Store} {pth : Path} :
    (p.packCryptoPacket crypto streams random store pth).packer = p := by
  unfold Packer.packCryptoPacket
  dsimp only
  cases (p.getPublicHeader crypto crypto.cryptoStreamLevel pth).getLength p.perspective <;> rfl

section Example

def readyPacker (controlFrames : List ControlFrame) (stopWaiting : Option StopWaitingFrame)
    (ackFrame : Option AckFrame) (firstpayloadFrames : List Nat) : Packer where
  connectionID := 0
  perspective := .client
  version := versionMP
  truncateConnectionID := false
  streamFramer := ⟨[], []⟩
  controlFrames := controlFrames
  stopWaiting := Function.update (fun _ => none) 1 stopWaiting
  ackFrame := Function.update (fun _ => none) 1 ackFrame
  firstpayloadFrames := firstpayloadFrames

def readyCrypto : CryptoSetup := ⟨.forwardSecure, .forwardSecure, [], true, by decide⟩

def readyPath : Path := ⟨1, ⟨500, 7, 0⟩, 1⟩

def quietStreams : Streams where
  cryptoData := []
  cryptoOffset := 0
  cryptoEnd_lt := by decide
  maybePopNormalFrames := fun _ => ⟨[], []⟩
  maybePopNormalFramesSTMS := fun _ _ => ⟨[], []⟩

def oneFrameStore : Store := ⟨fun _ => ⟨5, false, true, 0, [42]⟩, 1⟩

def pendingAck : AckFrame := ⟨⟨3, 1, []⟩, 1, 0⟩

end Example

end MpQuic.Packing
