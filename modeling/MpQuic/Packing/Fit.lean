import MpQuic.Library.Sum
import MpQuic.Packing.Room
import MpQuic.Packing.Size

namespace MpQuic.Packing

open MpQuic.Library MpQuic.Protocol MpQuic.Wire List StreamFrame Heap

section Retransmission

variable {maxLen currentLen ref n : Nat} {store : Store} {rest : List Nat}
  {frame split left : StreamFrame}

def HasContent (frame : StreamFrame) : Prop :=
  frame.data ≠ [] ∨ frame.finBit = true

instance (frame : StreamFrame) : Decidable (HasContent frame) :=
  inferInstanceAs (Decidable (_ ∨ _))

-- A part of a frame that is divided along with it and that does not depend on the length field.
structure Divisible {β : Type*} (part : StreamFrame → List β) : Prop where
  dataLenPresent : ∀ (frame : StreamFrame) (present : Bool),
    part { frame with dataLenPresent := present } = part frame
  split : ∀ (frame split left : StreamFrame) (n : Nat),
    maybeSplitOffFrame frame n = some (split, left) → part split ++ part left = part frame

theorem maybeSplitOffFrame_eq (hsplit : maybeSplitOffFrame frame n = some (split, left)) :
    n < frame.dataLen ∧
      split = { frame with finBit := false, data := frame.data.take n } ∧
      left = { frame with data := frame.data.drop n, offset := frame.offset + n } := by
  unfold maybeSplitOffFrame at hsplit
  split at hsplit
  · cases hsplit
  · rename_i hless
    cases hsplit
    exact ⟨by omega, rfl, rfl⟩

theorem maybeSplitOffFrame_none (h : maybeSplitOffFrame frame n = none) : frame.dataLen ≤ n := by
  unfold maybeSplitOffFrame at h
  split at h
  next hwhole => exact hwhole
  · cases h

structure PoppedWithin (maxLen : Nat) (store : Store) (queue : List Nat) (currentLen : Nat)
    (popped : Popped) : Prop where
  room : popped.currentLen ≤ maxLen
  total : currentLen + StreamFrame.total (popped.res.map popped.store.get) = popped.currentLen
  lengths : ∀ ref ∈ popped.res, (popped.store.get ref).dataLenPresent = true
  nodup : popped.res.Nodup
  source : ∀ ref ∈ popped.res, ref ∈ queue ∨ store.next ≤ ref
  valid : ∀ ref ∈ popped.res, ref < popped.store.next
  grows : store.next ≤ popped.store.next
  other : ∀ ref, ref ∉ queue → ref < store.next → popped.store.get ref = store.get ref
  content : (∀ ref ∈ queue, HasContent (store.get ref)) →
    ∀ ref ∈ popped.res, HasContent (popped.store.get ref)
  conserves : ∀ {β : Type} {part : StreamFrame → List β}, Divisible part →
    (popped.res ++ popped.queue).flatMap (fun ref => part (popped.store.get ref)) =
      queue.flatMap fun ref => part (store.get ref)

variable (hframe : ({ store.get ref with dataLenPresent := true } : StreamFrame) = frame)
include hframe

theorem poppedWithin_none (hroom : currentLen ≤ maxLen) (hnotin : ref ∉ rest) :
    PoppedWithin maxLen store (ref :: rest) currentLen
      ⟨store.set ref frame, ref :: rest, [], currentLen⟩ where
  room := hroom
  total := rfl
  lengths := by simp
  nodup := nodup_nil
  source := by simp
  valid := by simp
  grows := Nat.le_refl _
  other _ hother _ := get_set_of_ne _ _ (ne_of_not_mem_cons hother)
  content := by simp
  conserves hpart := by
    rw [nil_append, flatMap_cons, flatMap_cons, get_set_self, ← hframe, hpart.dataLenPresent]
    congr 1
    refine flatMap_congr fun other hin => ?_
    rw [get_set_of_ne _ _ (ne_of_mem_of_not_mem hin hnotin)]

theorem poppedWithin_split (hheader : currentLen + frame.minLength < maxLen)
    (hsplit : maybeSplitOffFrame frame (maxLen - (currentLen + frame.minLength)) =
      some (split, left))
    (hnotin : ref ∉ rest) (hvalid : ∀ other ∈ ref :: rest, other < store.next) :
    PoppedWithin maxLen store (ref :: rest) currentLen
      ⟨((store.set ref frame).set ref left).alloc split, ref :: rest, [store.next],
        currentLen + frame.minLength + split.dataLen⟩ := by
  obtain ⟨hless, hfront, hback⟩ := maybeSplitOffFrame_eq hsplit
  have hnew : (((store.set ref frame).set ref left).alloc split).get store.next = split :=
    get_alloc_next _ _
  have hkept : ∀ other, other ≠ ref → other < store.next →
      (((store.set ref frame).set ref left).alloc split).get other = store.get other := by
    intro other hne hlt
    rw [get_alloc_of_lt ((store.set ref frame).set ref left) split hlt, get_set_of_ne _ _ hne,
      get_set_of_ne _ _ hne]
  have hlength : split.dataLen = maxLen - (currentLen + frame.minLength) := by
    rw [hfront]
    exact length_take_of_le hless.le
  refine ⟨?_, ?_, ?_, nodup_singleton _, ?_, ?_, Nat.le_succ _, ?_, ?_, ?_⟩
  · dsimp only
    omega
  · simp only [map_cons, map_nil, total_cons, total_nil, Nat.add_zero, hnew]
    rw [show split.minLength = frame.minLength by rw [hfront]; rfl]
    omega
  · intro other hother
    rw [mem_singleton.mp hother, hnew, hfront, ← hframe]
  · exact fun other hother => Or.inr (mem_singleton.mp hother).ge
  · intro other hother
    rw [mem_singleton.mp hother]
    exact Nat.lt_succ_self _
  · exact fun other hother hlt => hkept other (ne_of_not_mem_cons hother) hlt
  · intro _ other hother
    rw [mem_singleton.mp hother, hnew]
    -- The header leaves room for at least one byte.
    refine .inl fun hempty => ?_
    have hzero : split.dataLen = 0 := congrArg List.length hempty
    omega
  · intro β part hpart
    have hleft : (((store.set ref frame).set ref left).alloc split).get ref = left := by
      rw [get_alloc_of_lt ((store.set ref frame).set ref left) split (hvalid ref mem_cons_self),
        get_set_self]
    rw [singleton_append, flatMap_cons, flatMap_cons, flatMap_cons, hnew, hleft, ← append_assoc,
      hpart.split _ _ _ _ hsplit, ← hframe, hpart.dataLenPresent]
    congr 1
    refine flatMap_congr fun other hin => ?_
    rw [hframe, hkept other (ne_of_mem_of_not_mem hin hnotin)
      (hvalid other (mem_cons_of_mem _ hin))]

theorem PoppedWithin.cons {later : Popped}
    (hlater : PoppedWithin maxLen (store.set ref frame) rest
      (currentLen + frame.minLength + frame.dataLen) later)
    (hnotin : ref ∉ rest) (href : ref < store.next) :
    PoppedWithin maxLen store (ref :: rest) currentLen
      { later with res := ref :: later.res } := by
  have hself := hlater.other ref hnotin href
  rw [get_set_self] at hself
  refine ⟨hlater.room, ?_, ?_, ?_, ?_, ?_, hlater.grows, ?_, ?_, ?_⟩
  · have htotal := hlater.total
    simp only [map_cons, total_cons, hself]
    omega
  · refine forall_mem_cons.mpr ⟨?_, hlater.lengths⟩
    rw [hself, ← hframe]
  · refine nodup_cons.mpr ⟨fun hin => ?_, hlater.nodup⟩
    rcases hlater.source ref hin with hqueue | hnew
    · exact hnotin hqueue
    · exact absurd href (Nat.not_lt.mpr hnew)
  · refine forall_mem_cons.mpr ⟨Or.inl mem_cons_self, fun other hin => ?_⟩
    exact (hlater.source other hin).imp_left (mem_cons_of_mem _)
  · exact forall_mem_cons.mpr ⟨Nat.lt_of_lt_of_le href hlater.grows, hlater.valid⟩
  · intro other hother hlt
    rw [hlater.other other (not_mem_of_not_mem_cons hother) hlt,
      get_set_of_ne _ _ (ne_of_not_mem_cons hother)]
  · intro hcontent
    obtain ⟨hfirst, hrest⟩ := forall_mem_cons.mp hcontent
    refine forall_mem_cons.mpr ⟨?_, hlater.content fun other hin => ?_⟩
    · rw [hself, ← hframe]
      exact hfirst
    · rw [get_set_of_ne _ _ (ne_of_mem_of_not_mem hin hnotin)]
      exact hrest other hin
  · intro β part hpart
    rw [cons_append, flatMap_cons, flatMap_cons, hself, hlater.conserves hpart, ← hframe,
      hpart.dataLenPresent]
    congr 1
    refine flatMap_congr fun other hin => ?_
    rw [get_set_of_ne _ _ (ne_of_mem_of_not_mem hin hnotin)]

omit hframe

theorem maybePopFramesForRetransmission_within (queue : List Nat) (store : Store)
    (currentLen : Nat) (hroom : currentLen ≤ maxLen) (hnodup : queue.Nodup)
    (hvalid : ∀ ref ∈ queue, ref < store.next) :
    PoppedWithin maxLen store queue currentLen
      (maybePopFramesForRetransmission maxLen store queue currentLen) := by
  induction queue generalizing store currentLen with
  | nil =>
    exact ⟨hroom, rfl, nofun, nodup_nil, nofun, nofun, Nat.le_refl _, fun _ _ _ => rfl, nofun,
      fun _ => rfl⟩
  | cons ref rest ih =>
    obtain ⟨hnotin, hrest⟩ := nodup_cons.mp hnodup
    rw [maybePopFramesForRetransmission]
    generalize hframe : ({ store.get ref with dataLenPresent := true } : StreamFrame) = frame
    dsimp only
    split
    · exact poppedWithin_none hframe hroom hnotin
    next hheader =>
      split
      next split left hsplit =>
        exact poppedWithin_split hframe (Nat.lt_of_not_le hheader) hsplit hnotin hvalid
      next hwhole =>
        have hlen := maybeSplitOffFrame_none hwhole
        refine PoppedWithin.cons hframe (ih _ _ ?_ hrest ?_) hnotin (hvalid ref mem_cons_self)
        · omega
        · exact fun other hother => hvalid other (mem_cons_of_mem _ hother)

end Retransmission

variable {store : Store} {p : Packer} {pathID maxBytes : Nat}

theorem total_clearLastDataLen {refs : List Nat} (hnodup : refs.Nodup)
    (hsome : refs ≠ []) (hlengths : ∀ ref ∈ refs, (store.get ref).dataLenPresent = true) :
    StreamFrame.total (refs.map store.get) =
      StreamFrame.total (refs.map (clearLastDataLen store refs).get) + 2 := by
  have hlast := List.getLast?_eq_some_getLast hsome
  have hin := getLast_mem hsome
  unfold clearLastDataLen StreamFrame.total
  simp only [hlast, map_map]
  apply sum_map_of_update hnodup hin
  · intro ref hne
    simp only [Function.comp_apply]
    rw [get_set_of_ne _ _ hne]
  · have hpresent := hlengths _ hin
    simp only [Function.comp_apply, get_set_self, StreamFrame.minLength,
      StreamFrame.calculateStreamIDLength, StreamFrame.getOffsetLength, StreamFrame.dataLen, hpresent]
    simp only [if_true, Bool.false_eq_true, if_false]
    omega

section Streams

variable {popNormal : Nat → Handout} {framer : StreamFramer} {store : Store}

theorem popStreamFrames_total (maxLen : Nat) (hpop : ∀ maxBytes,
      StreamFrame.total ((popNormal maxBytes).frames.map NewFrame.toStreamFrame) ≤ maxBytes)
    (hnodup : framer.retransmissionQueue.Nodup)
    (hvalid : ∀ ref ∈ framer.retransmissionQueue, ref < store.next) :
    let popped := popStreamFrames popNormal framer store maxLen
    StreamFrame.total (popped.frames.map popped.store.get) ≤ maxLen ∧ popped.frames.Nodup ∧
      ∀ ref ∈ popped.frames, (popped.store.get ref).dataLenPresent = true := by
  have hold := maybePopFramesForRetransmission_within framer.retransmissionQueue store 0
    (Nat.zero_le maxLen) hnodup hvalid
  unfold popStreamFrames
  dsimp only
  generalize maybePopFramesForRetransmission maxLen store framer.retransmissionQueue 0 = popped
    at hold ⊢
  have hnew := hpop (maxLen - popped.currentLen)
  generalize popNormal (maxLen - popped.currentLen) = handout at hnew ⊢
  -- the frames that were queued are not touched by the new ones
  have hkept : ∀ ref ∈ popped.res,
      (popped.store.allocAll (handout.frames.map NewFrame.toStreamFrame)).get ref =
        popped.store.get ref :=
    fun ref href => get_allocAll_of_lt _ _ (hold.valid ref href)
  have hadded := map_get_allocAll popped.store (handout.frames.map NewFrame.toStreamFrame)
  rw [length_map] at hadded
  refine ⟨?_, ?_, ?_⟩
  · have htotal := hold.total
    have hroom := hold.room
    rw [map_append, total_append, map_congr_left hkept, hadded]
    omega
  · apply nodup_append.mpr
    refine ⟨hold.nodup, nodup_range', ?_⟩
    rintro ref href other hother rfl
    have hlt := hold.valid ref href
    have hge := (mem_range'_1.mp hother).1
    omega
  · intro ref href
    rcases mem_append.mp href with hqueued | hrange
    · rw [hkept ref hqueued]
      exact hold.lengths ref hqueued
    · have hin : (popped.store.allocAll (handout.frames.map NewFrame.toStreamFrame)).get ref ∈
          (List.range' popped.store.next handout.frames.length).map _ := mem_map_of_mem hrange
      rw [hadded] at hin
      obtain ⟨frame, -, hframe⟩ := mem_map.mp hin
      rw [← hframe]
      rfl

end Streams

def Packer.FewPaths (p : Packer) : Prop :=
  ∀ frame ∈ p.controlFrames, frame.FewPaths

theorem pending_fewPaths : ∀ frame ∈ p.pending pathID, frame.FewPaths := by
  intro frame hframe
  rcases mem_append.mp hframe with hin | hin
  · obtain ⟨swf, -, rfl⟩ := Option.map_eq_some_iff.mp (Option.mem_toList.mp hin)
    trivial
  · obtain ⟨ack, -, rfl⟩ := Option.map_eq_some_iff.mp (Option.mem_toList.mp hin)
    trivial

theorem composeWith_fits {popNormal : Nat → Handout}
    {canSendStreamFrames : Bool} {publicHeaderLength : Nat} {publicHeader : PublicHeader}
    (hheader : publicHeader.getLength p.perspective = .ok publicHeaderLength)
    (hsmall : publicHeaderLength ≤ 52)
    (hpop : ∀ maxBytes,
      StreamFrame.total ((popNormal maxBytes).frames.map NewFrame.toStreamFrame) ≤ maxBytes)
    (hfew : p.FewPaths) (hnodup : p.streamFramer.retransmissionQueue.Nodup)
    (hvalid : ∀ ref ∈ p.streamFramer.retransmissionQueue, ref < store.next)
    {payloadFrames : List (Frame Nat)}
    (h : (p.composeWith popNormal store (Packer.maxSize publicHeaderLength) canSendStreamFrames
      pathID).result = .ok payloadFrames) :
    p.Fits (p.composeWith popNormal store (Packer.maxSize publicHeaderLength) canSendStreamFrames
      pathID).store publicHeader payloadFrames := by
  obtain ⟨payloadLength, control, refs, hpending, hcontrol, hroom, rfl, hrefs, -⟩ :=
    composeWith_frames h
  intro header payload hwrite hpayload
  obtain ⟨front, back, hfront, hback, rfl⟩ := writeFrames_append hpayload
  obtain ⟨total, htaken, htotal⟩ := takeControlFrames_total (Packer.maxSize publicHeaderLength)
    p.controlFrames.reverse payloadLength
  rw [hcontrol] at htaken htotal
  have hall : ∀ frame ∈ p.pending pathID ++ control.taken, frame.FewPaths := by
    intro frame hframe
    rcases mem_append.mp hframe with hin | hin
    · exact pending_fewPaths frame hin
    · apply hfew
      have hsplit := takeControlFrames_append (Packer.maxSize publicHeaderLength)
        p.controlFrames.reverse payloadLength
      rw [hcontrol] at hsplit
      rw [← mem_reverse, ← hsplit]
      exact mem_append_left _ hin
  have hcontrols := length_write_controls hall (totalMinLength_append hpending htaken) hfront
  have hstreams := length_write_streams hback
  have hlength := PublicHeader.length_write hwrite hheader
  have hrest : control.payloadLength + back.length ≤ Packer.maxSize publicHeaderLength := by
    rw [hstreams]
    rcases hrefs with rfl | ⟨hpopped, hstore⟩
    · simpa using hroom
    · by_cases hsome : refs = []
      · rw [hsome]
        simpa using hroom
      · obtain ⟨hle, hdistinct, hlengths⟩ := popStreamFrames_total
          (Packer.maxSize publicHeaderLength + 2 - control.payloadLength) hpop hnodup hvalid
        rw [← hpopped] at hle hdistinct hlengths
        have hclear := total_clearLastDataLen hdistinct hsome hlengths
        rw [hstore]
        omega
  rw [length_append, hlength, hcontrols]
  unfold Packer.maxSize maxPacketSize overhead at *
  omega

def Handout.Popped (handout : Handout) (maxBytes : Nat) : Prop :=
  ∃ (f next : Framing.Framer) (lackbw : Bool) (out : List Framing.Emission),
    f.iPriority = false ∧ Framing.maybePopNormalFrames f maxBytes lackbw = some (next, out) ∧
      handout.frames.map NewFrame.toStreamFrame = out.map Framing.Emission.frame

def Handout.PoppedSTMS (handout : Handout) (maxBytes : Nat) (gap : Int) : Prop :=
  ∃ (f next : Stms.Framer) (frames : List StreamFrame),
    Stms.maybePopNormalFramesSTMS f maxBytes gap = some (next, frames) ∧
      handout.frames.map NewFrame.toStreamFrame = frames

structure Streams.Framed (streams : Streams) : Prop where
  normal : ∀ maxBytes, (streams.maybePopNormalFrames maxBytes).Popped maxBytes
  stms : ∀ maxBytes gap, (streams.maybePopNormalFramesSTMS maxBytes gap).PoppedSTMS maxBytes gap

theorem Handout.Popped.total_le {handout : Handout} (h : handout.Popped maxBytes) :
    StreamFrame.total (handout.frames.map NewFrame.toStreamFrame) ≤ maxBytes := by
  obtain ⟨f, next, lackbw, out, hoff, hpop, hframes⟩ := h
  rw [hframes]
  exact Framing.maybePopNormalFrames_total_le hoff hpop

theorem Handout.PoppedSTMS.total_le {handout : Handout} {gap : Int}
    (h : handout.PoppedSTMS maxBytes gap) :
    StreamFrame.total (handout.frames.map NewFrame.toStreamFrame) ≤ maxBytes := by
  obtain ⟨f, next, frames, hpop, hframes⟩ := h
  rw [hframes]
  exact Stms.maybePopNormalFramesSTMS_total_le hpop

def Packer.compose (streams : Streams) :
    Option Int → Packer → Store → Nat → Bool → Nat → Composed
  | none => Packer.composeNextPacket streams
  | some gap => Packer.composeNextPacketSTMS streams gap

def Streams.handout (streams : Streams) : Option Int → Nat → Handout
  | none => streams.maybePopNormalFrames
  | some gap => fun maxBytes => streams.maybePopNormalFramesSTMS maxBytes gap

theorem compose_eq (streams : Streams) (gap : Option Int) :
    Packer.compose streams gap = Packer.composeWith (streams.handout gap) := by
  cases gap <;> rfl

theorem Streams.Framed.total_le {streams : Streams} (h : streams.Framed) (gap : Option Int)
    (maxBytes : Nat) :
    StreamFrame.total ((streams.handout gap maxBytes).frames.map NewFrame.toStreamFrame) ≤
      maxBytes := by
  cases gap with
  | none => exact (h.normal maxBytes).total_le
  | some gap => exact (h.stms maxBytes gap).total_le

-- No frame object is queued twice. A reference in the queue stands for an object, so it
-- has been handed out.
structure Packer.QueuedOnce (p : Packer) (store : Store) : Prop where
  nodup : p.streamFramer.retransmissionQueue.Nodup
  valid : ∀ ref ∈ p.streamFramer.retransmissionQueue, ref < store.next

-- The queues that a packet is composed from are in order.
structure Packer.Orderly (p : Packer) (streams : Streams) (store : Store) : Prop where
  few : p.FewPaths
  once : p.QueuedOnce store
  handout : ∀ maxBytes, StreamFrame.total
    ((streams.maybePopNormalFrames maxBytes).frames.map NewFrame.toStreamFrame) ≤ maxBytes

-- The queues are in order, which is enough for a packet that fits, or else what the path
-- composes from them is good.
def Packer.FirstComposes (p : Packer) (crypto : CryptoSetup) (streams : Streams) (store : Store)
    (pth : Path) (good : Composed → List (Frame Nat) → Prop) : Prop :=
  p.Orderly streams store ∨
    ∀ publicHeaderLength payloadFrames,
      (p.getPublicHeader crypto crypto.level pth).getLength p.perspective =
        .ok publicHeaderLength →
      (p.composeFirst crypto streams store pth publicHeaderLength).result = .ok payloadFrames →
      good (p.composeFirst crypto streams store pth publicHeaderLength) payloadFrames

-- The packet that the path composes is not too large.
def Packer.FirstFits (p : Packer) (crypto : CryptoSetup) (streams : Streams) (store : Store)
    (pth : Path) : Prop :=
  p.FirstComposes crypto streams store pth fun composed =>
    p.Fits composed.store (p.getPublicHeader crypto crypto.level pth)

section First

variable {crypto : CryptoSetup} {streams : Streams} {pth : Path} {publicHeaderLength : Nat}

theorem composeFirst_writes (p : Packer) (crypto : CryptoSetup) (streams : Streams) (store : Store)
    (pth : Path) (publicHeaderLength : Nat) :
    (p.composeFirst crypto streams store pth publicHeaderLength).packer.version = p.version ∧
      (p.composeFirst crypto streams store pth publicHeaderLength).packer.perspective =
        p.perspective := by
  obtain ⟨hversion, hperspective⟩ := numberStopWaiting_writes p pth.pathID
    (p.getPublicHeader crypto crypto.level pth)
  obtain ⟨hsame, hother⟩ := composeWith_writes streams.maybePopNormalFrames
    (p.numberStopWaiting pth.pathID (p.getPublicHeader crypto crypto.level pth)) store
    (Packer.maxSize publicHeaderLength) (p.canSendData crypto.level) pth.pathID
  exact ⟨hsame.trans hversion, hother.trans hperspective⟩

theorem Packer.Orderly.fits (h : p.Orderly streams store)
    (hl : (p.getPublicHeader crypto crypto.level pth).getLength p.perspective =
      .ok publicHeaderLength) {payloadFrames : List (Frame Nat)}
    (hresult : (p.composeFirst crypto streams store pth publicHeaderLength).result =
      .ok payloadFrames) :
    p.Fits (p.composeFirst crypto streams store pth publicHeaderLength).store
      (p.getPublicHeader crypto crypto.level pth) payloadFrames := by
  obtain ⟨hversion, hperspective⟩ := numberStopWaiting_writes p pth.pathID
    (p.getPublicHeader crypto crypto.level pth)
  have hframer : (p.numberStopWaiting pth.pathID
      (p.getPublicHeader crypto crypto.level pth)).streamFramer = p.streamFramer := by
    unfold Packer.numberStopWaiting
    cases p.stopWaiting pth.pathID <;> rfl
  apply (Packer.Fits.congr hversion hperspective).mp
  refine composeWith_fits (hperspective ▸ hl) (getPublicHeader_length_le hl) h.handout ?_ ?_ ?_
    hresult
  · intro frame hframe
    rw [numberStopWaiting_controlFrames] at hframe
    exact h.few frame hframe
  · rw [hframer]
    exact h.once.nodup
  · rw [hframer]
    exact h.once.valid

theorem firstComposes_iff {good : Composed → List (Frame Nat) → Prop}
    (hl : (p.getPublicHeader crypto crypto.level pth).getLength p.perspective =
      .ok publicHeaderLength)
    (hfits : ∀ payloadFrames,
      p.Fits (p.composeFirst crypto streams store pth publicHeaderLength).store
        (p.getPublicHeader crypto crypto.level pth) payloadFrames →
      good (p.composeFirst crypto streams store pth publicHeaderLength) payloadFrames) :
    p.FirstComposes crypto streams store pth good ↔ ∀ payloadFrames,
      (p.composeFirst crypto streams store pth publicHeaderLength).result = .ok payloadFrames →
      good (p.composeFirst crypto streams store pth publicHeaderLength) payloadFrames := by
  constructor
  · rintro (horderly | hgood) payloadFrames hresult
    · exact hfits payloadFrames (horderly.fits hl hresult)
    · exact hgood publicHeaderLength payloadFrames hl hresult
  · intro hgood
    right
    intro length payloadFrames hlength
    cases hl.symm.trans hlength
    exact hgood payloadFrames

end First

-- Whatever is composed without an error fits: header, frames and overhead are not more
-- than a packet holds, and the packet is sealed unless the bytes cannot be written.
theorem composed_packet_fits (gap : Option Int) (streams : Streams) (crypto : CryptoSetup)
    (encLevel : EncryptionLevel) (random : Option Nat) (p : Packer) (store : Store) (pth : Path)
    (publicHeaderLength : Nat) (canSendStreamFrames : Bool) (payloadFrames : List (Frame Nat))
    (hstreams : streams.Framed) (hfew : p.FewPaths) (honce : p.QueuedOnce store)
    (hlength : (p.getPublicHeader crypto encLevel pth).getLength p.perspective =
      .ok publicHeaderLength)
    (h : (Packer.compose streams gap p store (Packer.maxSize publicHeaderLength)
      canSendStreamFrames pth.pathID).result = .ok payloadFrames) :
    let composed := Packer.compose streams gap p store (Packer.maxSize publicHeaderLength)
      canSendStreamFrames pth.pathID
    (∀ header payload, (p.getPublicHeader crypto encLevel pth).write p.version p.perspective =
        .ok header →
      writeFrames p.version composed.store payloadFrames = .ok payload →
      header.length + payload.length + overhead ≤ maxPacketSize) ∧
    (composed.packer.writeAndSealPacket composed.store (p.getPublicHeader crypto encLevel pth)
      payloadFrames random pth).2 ≠ .ok none := by
  rw [compose_eq] at h ⊢
  have hsmall := getPublicHeader_length_le hlength
  have hfits := composeWith_fits hlength hsmall (hstreams.total_le gap) hfew honce.nodup
    honce.valid h
  obtain ⟨hversion, hperspective⟩ := composeWith_writes (streams.handout gap) p store
    (Packer.maxSize publicHeaderLength) canSendStreamFrames pth.pathID
  refine ⟨hfits, ?_⟩
  apply writeAndSealPacket_ne_none_iff.mpr
  exact (Packer.Fits.congr hversion hperspective).mpr hfits

section Example

theorem quietStreams_framed : quietStreams.Framed where
  normal := fun _ =>
    ⟨Framing.newFramer false ⟨0, 0, 0, 0, 0, 0⟩, _, false, _, rfl, rfl, rfl⟩
  stms := fun _ _ => ⟨Stms.newFramer ⟨0, 0, 0, 0, 0, 0⟩, _, _, rfl, rfl⟩

def resendingPacker : Packer :=
  { readyPacker [.windowUpdate ⟨5, 1000⟩] none none [] with streamFramer := ⟨[0], []⟩ }

theorem resendingPacker_orderly : resendingPacker.Orderly quietStreams oneFrameStore where
  few frame hframe := by
    rw [List.mem_singleton.mp hframe]
    trivial
  once := by
    refine ⟨by decide, fun ref href => ?_⟩
    rw [List.mem_singleton.mp href]
    decide
  handout := Nat.zero_le

theorem composed_packet_fits_example :
    (Packer.compose quietStreams none resendingPacker oneFrameStore 1326 true 1).result =
      .ok [.control (.windowUpdate ⟨5, 1000⟩), .stream 0] ∧
    (Packer.writeAndSealPacket
      (Packer.compose quietStreams none resendingPacker oneFrameStore 1326 true 1).packer
      (Packer.compose quietStreams none resendingPacker oneFrameStore 1326 true 1).store
      (resendingPacker.getPublicHeader readyCrypto .forwardSecure readyPath)
      [.control (.windowUpdate ⟨5, 1000⟩), .stream 0] none readyPath).2 ≠ .ok none := by
  refine ⟨by decide +kernel, ?_⟩
  refine (composed_packet_fits none quietStreams readyCrypto .forwardSecure none resendingPacker
    oneFrameStore readyPath 12 true [.control (.windowUpdate ⟨5, 1000⟩), .stream 0]
    quietStreams_framed resendingPacker_orderly.few resendingPacker_orderly.once ?_ ?_).2
  · decide +kernel
  · decide +kernel

end Example

end MpQuic.Packing
