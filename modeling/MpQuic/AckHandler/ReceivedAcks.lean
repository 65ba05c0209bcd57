import MpQuic.Library.Run
import MpQuic.AckHandler.ReceivedHistory

namespace MpQuic.AckHandler

open MpQuic.Library MpQuic.Wire List

def ackSendDelay : Int := 25000000

def maxPacketsReceivedBeforeAckSend : Nat := 20

def retransmittablePacketsBeforeAck : Nat := 2

structure GeneratedAck extends AckBlocks where
  packetReceivedTime : Int
  deriving DecidableEq, Repr

-- `ackAlarm` is `none` for the zero time.
structure ReceivedPacketHandler where
  largestObserved : Nat
  lowerLimit : Nat
  largestObservedReceivedTime : Int
  packetHistory : ReceivedPacketHistory
  packetsReceivedSinceLastAck : Nat
  retransmittablePacketsReceivedSinceLastAck : Nat
  ackQueued : Bool
  ackAlarm : Option Int
  lastAck : Option GeneratedAck
  version : Int
  deriving DecidableEq, Repr

def newReceivedPacketHandler (version : Int) : ReceivedPacketHandler where
  largestObserved := 0
  lowerLimit := 0
  largestObservedReceivedTime := 0
  packetHistory := ⟨[]⟩
  packetsReceivedSinceLastAck := 0
  retransmittablePacketsReceivedSinceLastAck := 0
  ackQueued := false
  ackAlarm := none
  lastAck := none
  version := version

namespace ReceivedPacketHandler

def changesLastAck (h : ReceivedPacketHandler) (packetNumber : Nat) : Bool :=
  match h.lastAck with
  | none => true
  | some lastAck =>
    packetNumber < lastAck.largestAcked ||
      h.packetHistory.getHighestAckRange.first > lastAck.largestAcked

def maybeQueueAck (h : ReceivedPacketHandler) (packetNumber : Nat) (shouldInstigateAck : Bool)
    (now : Int) : ReceivedPacketHandler :=
  let received := h.packetsReceivedSinceLastAck + 1
  let retransmittable :=
    if shouldInstigateAck then h.retransmittablePacketsReceivedSinceLastAck + 1
    else h.retransmittablePacketsReceivedSinceLastAck
  let queued := h.ackQueued ||
    (h.version < 39 && received ≥ maxPacketsReceivedBeforeAckSend) ||
    h.changesLastAck packetNumber
  let enough := shouldInstigateAck && retransmittable ≥ retransmittablePacketsBeforeAck
  { h with
    packetsReceivedSinceLastAck := received
    retransmittablePacketsReceivedSinceLastAck := retransmittable
    ackQueued := queued || enough
    ackAlarm :=
      if queued || enough then none
      else if shouldInstigateAck && h.ackAlarm.isNone then some (now + ackSendDelay)
      else h.ackAlarm }

def observe (h : ReceivedPacketHandler) (packetNumber : Nat) (now : Int) :
    ReceivedPacketHandler :=
  if packetNumber > h.largestObserved then
    { h with largestObserved := packetNumber, largestObservedReceivedTime := now }
  else h

-- Nothing is returned for an error.
def receivedPacket (h : ReceivedPacketHandler) (packetNumber : Nat) (shouldInstigateAck : Bool)
    (now : Int) : Option ReceivedPacketHandler :=
  if packetNumber = 0 then none
  else
    let h := h.observe packetNumber now
    if packetNumber ≤ h.lowerLimit then some h
    else
      match h.packetHistory.receivedPacket packetNumber with
      | none => none
      | some packetHistory =>
        some (({ h with packetHistory := packetHistory } :
          ReceivedPacketHandler).maybeQueueAck packetNumber shouldInstigateAck now)

def setLowerLimit (h : ReceivedPacketHandler) (p : Nat) : ReceivedPacketHandler :=
  { h with lowerLimit := p, packetHistory := h.packetHistory.deleteUpTo p }

-- The outer `none` is the panic of an index out of range, the inner one says that there is no
-- frame to send.
def getAckFrame (h : ReceivedPacketHandler) (now : Int) :
    Option (ReceivedPacketHandler × Option GeneratedAck) :=
  if !h.ackQueued && h.ackAlarm.all (· > now) then some (h, none)
  else
    let ackRanges := h.packetHistory.getAckRanges
    match ackRanges.getLast? with
    | none => none
    | some lowest =>
      let ack : GeneratedAck :=
        { largestAcked := h.largestObserved
          lowestAcked := lowest.first
          ackRanges := if ackRanges.length > 1 then ackRanges else []
          packetReceivedTime := h.largestObservedReceivedTime }
      some ({ h with
        lastAck := some ack
        ackAlarm := none
        ackQueued := false
        packetsReceivedSinceLastAck := 0
        retransmittablePacketsReceivedSinceLastAck := 0 }, some ack)

-- A packet as `handlePacketImpl` of the path processes it: the number first, then its
-- STOP_WAITING frames.
def handlePacket (h : ReceivedPacketHandler) (packetNumber : Nat) (shouldInstigateAck : Bool)
    (leastUnacked : List Nat) (now : Int) : Option ReceivedPacketHandler :=
  (h.receivedPacket packetNumber shouldInstigateAck now).map
    ((leastUnacked.map fun least => sub64 least 1).foldl setLowerLimit)

end ReceivedPacketHandler

inductive ReceiveEvent where
  | packet (packetNumber : Nat) (shouldInstigateAck : Bool) (leastUnacked : List Nat) (now : Int)
  | getAckFrame (now : Int)
  deriving DecidableEq, Repr

-- The packet numbers start at one, and a STOP_WAITING frame is for a packet number up to that
-- of its own packet.
def ReceiveEvent.Valid : ReceiveEvent → Prop
  | packet packetNumber _ leastUnacked _ =>
    (0 < packetNumber ∧ packetNumber < 2 ^ 64) ∧
      ∀ least ∈ leastUnacked, 1 ≤ least ∧ least ≤ packetNumber
  | getAckFrame _ => True

def ReceiveEvent.numbers : ReceiveEvent → List Nat
  | packet packetNumber _ _ _ => [packetNumber]
  | getAckFrame _ => []

def receiveStep (h : ReceivedPacketHandler) :
    ReceiveEvent → Option (ReceivedPacketHandler × List GeneratedAck)
  | .packet packetNumber shouldInstigateAck leastUnacked now =>
    (h.handlePacket packetNumber shouldInstigateAck leastUnacked now).map fun h => (h, [])
  | .getAckFrame now => (h.getAckFrame now).map fun result => (result.1, result.2.toList)

structure Receiving (numbers : List Nat) (h : ReceivedPacketHandler) : Prop where
  separated : Separated h.packetHistory.ranges
  top : highest h.packetHistory.ranges = h.largestObserved
  limit : h.lowerLimit < h.largestObserved ∨ h.lowerLimit = 0
  largest : ∀ number ∈ numbers, number ≤ h.largestObserved
  received : h.largestObserved ∈ numbers ∨ h.largestObserved = 0
  queued : h.largestObserved = 0 → h.ackQueued = false ∧ h.ackAlarm = none

section Steps

variable {numbers : List Nat} {h next : ReceivedPacketHandler}

theorem Receiving.setLowerLimit (hr : Receiving numbers h) {p : Nat} (hp : p < h.largestObserved) :
    Receiving numbers (h.setLowerLimit p) where
  separated := hr.separated.deleteUpTo
  top := by
    have htop := hr.top
    rw [← htop] at hp
    exact (highest_deleteUpTo hp).trans htop
  limit := Or.inl hp
  largest := hr.largest
  received := hr.received
  queued := hr.queued

theorem Receiving.setLowerLimits (hr : Receiving numbers h) {limits : List Nat}
    (hlimits : ∀ p ∈ limits, p < h.largestObserved) :
    Receiving numbers (limits.foldl ReceivedPacketHandler.setLowerLimit h) := by
  induction limits generalizing h with
  | nil => exact hr
  | cons p rest ih =>
    exact ih (hr.setLowerLimit (hlimits p mem_cons_self)) fun other hother =>
      hlimits other (mem_cons_of_mem _ hother)

theorem Receiving.maybeQueueAck (hr : Receiving numbers h) (hpos : 0 < h.largestObserved)
    (packetNumber : Nat) (shouldInstigateAck : Bool) (now : Int) :
    Receiving numbers (h.maybeQueueAck packetNumber shouldInstigateAck now) where
  separated := hr.separated
  top := hr.top
  limit := hr.limit
  largest := hr.largest
  received := hr.received
  queued := fun hzero => absurd hzero (Nat.ne_of_gt hpos)

theorem observe_spec (h : ReceivedPacketHandler) (packetNumber : Nat) (now : Int) :
    (h.observe packetNumber now).largestObserved = max h.largestObserved packetNumber ∧
      (h.observe packetNumber now).lowerLimit = h.lowerLimit ∧
      (h.observe packetNumber now).packetHistory = h.packetHistory := by
  unfold ReceivedPacketHandler.observe
  split
  · exact ⟨by dsimp only; omega, rfl, rfl⟩
  · exact ⟨by omega, rfl, rfl⟩

variable {packetNumber : Nat} {shouldInstigateAck : Bool} {now : Int}

section

variable (hr : Receiving numbers h) (hpos : 0 < packetNumber) (hbound : packetNumber < 2 ^ 64)

include hr hpos hbound

theorem Receiving.added (now : Int) :
    Receiving (numbers ++ [packetNumber])
      { h.observe packetNumber now with
        packetHistory := ⟨addPacket packetNumber h.packetHistory.ranges⟩ } := by
  obtain ⟨hlargest, hlimit, -⟩ := observe_spec h packetNumber now
  have htop := hr.top
  refine ⟨hr.separated.addPacket hpos hbound, ?_, ?_, ?_, ?_, ?_⟩
  · dsimp only
    rw [highest_addPacket hr.separated hpos hbound, hlargest, htop]
  · dsimp only
    rw [hlargest, hlimit]
    rcases hr.limit with hbelow | hzero
    · exact Or.inl (by omega)
    · exact Or.inr hzero
  · intro number hnumber
    dsimp only
    rw [hlargest]
    rcases mem_append.mp hnumber with hold | hnew
    · have := hr.largest number hold
      omega
    · rw [mem_singleton.mp hnew]
      omega
  · dsimp only
    rw [hlargest, mem_append, mem_singleton]
    rcases Nat.le_total h.largestObserved packetNumber with hle | hle
    · exact Or.inl (Or.inr (Nat.max_eq_right hle))
    · rw [Nat.max_eq_left hle]
      rcases hr.received with hold | hzero
      · exact Or.inl (Or.inl hold)
      · exact Or.inr hzero
  · intro hzero
    dsimp only at hzero
    omega

theorem Receiving.receivedPacket
    (hs : h.receivedPacket packetNumber shouldInstigateAck now = some next) :
    Receiving (numbers ++ [packetNumber]) next ∧
      next.largestObserved = max h.largestObserved packetNumber := by
  obtain ⟨hlargest, hlimit, hhistory⟩ := observe_spec h packetNumber now
  simp only [ReceivedPacketHandler.receivedPacket, if_neg (Nat.ne_of_gt hpos), hlimit, hhistory,
    ReceivedPacketHistory.receivedPacket] at hs
  split at hs
  next hold =>
    -- the limit is below the largest packet number, so an old packet is not the largest one
    obtain rfl := Option.some.inj hs
    have hbelow : h.lowerLimit < h.largestObserved := by
      rcases hr.limit with hbelow | hzero
      · exact hbelow
      · omega
    have hsame : h.observe packetNumber now = h := if_neg (by omega)
    rw [hsame]
    refine ⟨⟨hr.separated, hr.top, hr.limit, ?_, ?_, hr.queued⟩, by omega⟩
    · intro number hnumber
      rcases mem_append.mp hnumber with hknown | hnew
      · exact hr.largest number hknown
      · rw [mem_singleton.mp hnew]
        omega
    · rcases hr.received with hknown | hzero
      · exact Or.inl (mem_append_left _ hknown)
      · exact Or.inr hzero
  next hnew =>
    split at hs
    · cases hs
    next packetHistory hadded =>
      split at hadded
      · cases hadded
      · obtain rfl := Option.some.inj hadded
        obtain rfl := Option.some.inj hs
        have hkept := hr.added hpos hbound now
        simp only [hlimit] at hkept
        exact ⟨hkept.maybeQueueAck (by dsimp only; omega) _ _ _, hlargest⟩

theorem Receiving.handlePacket {leastUnacked : List Nat}
    (hleast : ∀ least ∈ leastUnacked, 1 ≤ least ∧ least ≤ packetNumber)
    (hs : h.handlePacket packetNumber shouldInstigateAck leastUnacked now = some next) :
    Receiving (numbers ++ [packetNumber]) next := by
  obtain ⟨received, hreceived, rfl⟩ := Option.map_eq_some_iff.mp hs
  obtain ⟨hkept, hlargest⟩ := hr.receivedPacket hpos hbound hreceived
  apply hkept.setLowerLimits
  intro p hp
  obtain ⟨least, hmem, rfl⟩ := mem_map.mp hp
  obtain ⟨hone, hle⟩ := hleast least hmem
  rw [sub64_of_le hone (by omega)]
  omega

end

end Steps

structure Reports (ranges : List AckRange) (f : AckBlocks) : Prop where
  highest : ranges.head?.map AckRange.last = some f.largestAcked
  lowest : ranges.getLast?.map AckRange.first = some f.lowestAcked
  ranges : f.ackRanges = if ranges.length > 1 then ranges else []

def ReceivedPacketHistory.FirstGapFits (h : ReceivedPacketHistory) : Prop :=
  match h.ranges with
  | upper :: lower :: _ => upper.start - lower.stop - 1 ≤ 254 * 255
  | _ => True

section Acks

variable {numbers : List Nat} {h : ReceivedPacketHandler} {ranges : List PacketInterval}

theorem Separated.stop_le (hs : Separated ranges) : ∀ el ∈ ranges, el.stop ≤ highest ranges := by
  cases ranges with
  | nil =>
    intro el hel
    cases hel
  | cons top lower =>
    intro el hel
    rw [highest_cons]
    rcases mem_cons.mp hel with rfl | hel
    · exact Nat.le_refl _
    · have hbelow := (pairwise_cons.mp hs.apart).1 el hel
      have hordered := (hs.valid top mem_cons_self).ordered
      omega

variable {f : AckBlocks}

theorem Separated.consistent (hs : Separated ranges)
    (hf : Reports (ranges.map fun el => ⟨el.start, el.stop⟩) f) : f.Consistent := by
  have hlargest : highest ranges = f.largestAcked := by
    have hhighest := hf.highest
    cases ranges with
    | nil => cases hhighest
    | cons top lower => exact Option.some.inj hhighest
  obtain ⟨bottom, hbottom, hlowest⟩ : ∃ bottom ∈ ranges, bottom.start = f.lowestAcked := by
    have hlowest := hf.lowest
    rw [List.getLast?_map, Option.map_map] at hlowest
    obtain ⟨bottom, hlast, hstart⟩ := Option.map_eq_some_iff.mp hlowest
    exact ⟨bottom, List.mem_of_getLast? hlast, hstart⟩
  have hvalid := hs.valid bottom hbottom
  have hbottomle := hs.stop_le bottom hbottom
  have hpos := hvalid.positive
  have hordered := hvalid.ordered
  have hsome : ranges ≠ [] := ne_nil_of_mem hbottom
  have hunsigned : f.largestAcked < 2 ^ 64 := by
    rw [← hlargest]
    cases ranges with
    | nil => exact absurd rfl hsome
    | cons top lower => exact (hs.valid top mem_cons_self).unsigned
  have hmem : ∀ r ∈ f.ackRanges, ∃ el ∈ ranges, r = ⟨el.start, el.stop⟩ := by
    intro r hr
    rw [hf.ranges] at hr
    split at hr
    · obtain ⟨el, hel, rfl⟩ := mem_map.mp hr
      exact ⟨el, hel, rfl⟩
    · cases hr
  refine ⟨⟨by omega, ?_, ?_, ?_, ?_⟩, by omega, hunsigned, ?_⟩
  · intro hne
    rw [hf.ranges] at hne ⊢
    split at hne
    next hmany =>
      rw [if_pos hmany]
      exact hmany
    next => exact absurd rfl hne
  · intro r hr
    obtain ⟨el, hel, rfl⟩ := hmem r hr
    rw [← hlargest]
    exact ⟨(hs.valid el hel).ordered, hs.stop_le el hel⟩
  · rw [hf.ranges]
    split
    · exact pairwise_map.mpr hs.apart
    · exact List.Pairwise.nil
  · intro r hr
    rw [hf.ranges] at hr
    have hhighest := hf.highest
    split at hr
    · rw [hr] at hhighest
      exact Option.some.inj hhighest
    · cases hr
  · intro r hr
    rw [hf.ranges] at hr
    have hlow := hf.lowest
    split at hr
    · rw [hr] at hlow
      exact Option.some.inj hlow
    · cases hr

theorem Reports.firstGapFits_iff {history : ReceivedPacketHistory}
    (hf : Reports history.getAckRanges f) : f.FirstGapFits ↔ history.FirstGapFits := by
  unfold AckBlocks.FirstGapFits ReceivedPacketHistory.FirstGapFits
  rw [hf.ranges]
  unfold ReceivedPacketHistory.getAckRanges
  cases history.ranges with
  | nil => simp
  | cons upper rest =>
    cases rest with
    | nil => simp
    | cons lower later => simp

theorem Receiving.getAckFrame (hr : Receiving numbers h) (now : Int) :
    ∃ next ack, h.getAckFrame now = some (next, ack) ∧ Receiving numbers next ∧
      ∀ f, ack = some f → Reports h.packetHistory.getAckRanges f.toAckBlocks ∧
        f.largestAcked = h.largestObserved ∧ 0 < h.largestObserved := by
  unfold ReceivedPacketHandler.getAckFrame
  split
  next => exact ⟨h, none, rfl, hr, fun f hf => by cases hf⟩
  next hqueue =>
    have hpos : h.largestObserved ≠ 0 := by
      intro hzero
      obtain ⟨hqueued, halarm⟩ := hr.queued hzero
      simp [hqueued, halarm] at hqueue
    have htop := hr.top
    cases hranges : h.packetHistory.ranges with
    | nil =>
      rw [hranges] at htop
      exact absurd htop.symm hpos
    | cons top lower =>
      rw [hranges, highest_cons] at htop
      have hlast : h.packetHistory.getAckRanges ≠ [] := by
        simp [ReceivedPacketHistory.getAckRanges, hranges]
      have hhead : h.packetHistory.getAckRanges.head?.map AckRange.last =
          some h.largestObserved := by
        simp [ReceivedPacketHistory.getAckRanges, hranges, htop]
      dsimp only
      rw [List.getLast?_eq_some_getLast hlast]
      refine ⟨_, _, rfl, ?_, fun f hf => ?_⟩
      · exact ⟨hr.separated, hr.top, hr.limit, hr.largest, hr.received,
          fun hzero => absurd hzero hpos⟩
      · obtain rfl := Option.some.inj hf
        refine ⟨⟨hhead, ?_, rfl⟩, rfl, Nat.pos_of_ne_zero hpos⟩
        rw [List.getLast?_eq_some_getLast hlast]
        rfl

theorem receiving_new (version : Int) : Receiving [] (newReceivedPacketHandler version) where
  separated := ⟨fun _ hel => absurd hel not_mem_nil, List.Pairwise.nil⟩
  top := rfl
  limit := Or.inr rfl
  largest := fun _ hnumber => absurd hnumber not_mem_nil
  received := Or.inr rfl
  queued := fun _ => ⟨rfl, rfl⟩

theorem receiveStep_keeps {next : ReceivedPacketHandler} {event : ReceiveEvent}
    {out : List GeneratedAck} (hr : Receiving numbers h) (he : event.Valid)
    (hs : receiveStep h event = some (next, out)) : Receiving (numbers ++ event.numbers) next := by
  cases event with
  | packet packetNumber shouldInstigateAck leastUnacked now =>
    obtain ⟨handled, hhandled, heq⟩ := Option.map_eq_some_iff.mp hs
    obtain ⟨rfl, -⟩ := Prod.mk.inj heq
    exact hr.handlePacket he.1.1 he.1.2 he.2 hhandled
  | getAckFrame now =>
    obtain ⟨result, hresult, heq⟩ := Option.map_eq_some_iff.mp hs
    obtain ⟨rfl, -⟩ := Prod.mk.inj heq
    obtain ⟨after, ack, hgot, hkept, -⟩ := hr.getAckFrame now
    rw [hgot] at hresult
    obtain rfl := Option.some.inj hresult
    rw [ReceiveEvent.numbers, append_nil]
    exact hkept

def receivedNumbers (events : List ReceiveEvent) : List Nat :=
  events.flatMap ReceiveEvent.numbers

theorem receiving_run {version : Int} {events : List ReceiveEvent} {log : List GeneratedAck}
    (he : ∀ event ∈ events, event.Valid)
    (hrun : run receiveStep (newReceivedPacketHandler version) events = some (h, log)) :
    Receiving (receivedNumbers events) h := by
  have hinv := run_invariant (fun past _ state => Receiving (receivedNumbers past) state)
    (fun past log state event next out hstate hvalid hs => by
      unfold receivedNumbers at hstate ⊢
      rw [flatMap_append, flatMap_singleton]
      exact receiveStep_keeps hstate hvalid hs)
    [] [] _ h events log (receiving_new version) (Along.of_forall he _) hrun
  rw [nil_append] at hinv
  exact hinv

end Acks

-- In every run a generated frame reports the ranges of the received packets, up to the largest
-- one, and there is always a range to report. It is written unless the gap below the highest range
-- takes too many blocks.
theorem generated_acks_are_well_formed (version : Int) (events : List ReceiveEvent)
    (h : ReceivedPacketHandler) (log : List GeneratedAck) (he : ∀ event ∈ events, event.Valid)
    (hrun : run receiveStep (newReceivedPacketHandler version) events = some (h, log)) (now : Int) :
    ∃ next ack, h.getAckFrame now = some (next, ack) ∧ ∀ f, ack = some f →
      Reports h.packetHistory.getAckRanges f.toAckBlocks ∧ f.Consistent ∧
      f.largestAcked ∈ receivedNumbers events ∧
      (∀ number ∈ receivedNumbers events, number ≤ f.largestAcked) ∧
      ∀ (wireVersion : Int) (pathID : Nat) (delayTime : Int),
        (∃ bytes, AckFrame.write wireVersion ⟨f.toAckBlocks, pathID, delayTime⟩ = .ok bytes) ↔
          h.packetHistory.FirstGapFits := by
  have hr := receiving_run he hrun
  obtain ⟨next, ack, hgot, -, hack⟩ := hr.getAckFrame now
  refine ⟨next, ack, hgot, fun f hf => ?_⟩
  obtain ⟨hreports, hlargest, hpos⟩ := hack f hf
  have hconsistent : f.Consistent := hr.separated.consistent hreports
  refine ⟨hreports, hconsistent, ?_, ?_, ?_⟩
  · rw [hlargest]
    exact hr.received.resolve_right (Nat.ne_of_gt hpos)
  · rw [hlargest]
    exact hr.largest
  · intro wireVersion pathID delayTime
    rw [AckFrame.write_ok_iff wireVersion hconsistent]
    exact hreports.firstGapFits_iff

theorem generated_acks_are_well_formed_example :
    let events : List ReceiveEvent :=
      [.packet 3 true [] 0, .packet 1 true [] 1, .packet 7 true [2] 2]
    (run receiveStep (newReceivedPacketHandler 512) events).map
        (fun result => result.1.packetHistory.ranges) = some [⟨7, 7⟩, ⟨3, 3⟩] ∧
      ∀ h log, run receiveStep (newReceivedPacketHandler 512) events = some (h, log) →
        ∃ next ack, h.getAckFrame 3 = some (next, ack) ∧ ∀ f, ack = some f →
          Reports h.packetHistory.getAckRanges f.toAckBlocks ∧ f.Consistent ∧
          f.largestAcked ∈ receivedNumbers events ∧
          (∀ number ∈ receivedNumbers events, number ≤ f.largestAcked) ∧
          ∀ (wireVersion : Int) (pathID : Nat) (delayTime : Int),
            (∃ bytes, AckFrame.write wireVersion ⟨f.toAckBlocks, pathID, delayTime⟩ = .ok bytes) ↔
              h.packetHistory.FirstGapFits := by
  refine ⟨by decide +kernel, fun h log hrun => ?_⟩
  refine generated_acks_are_well_formed 512 _ h log ?_ hrun 3
  simp [ReceiveEvent.Valid]

-- Packet 100000 comes after packet 1. The frame is generated, but it is not written.
theorem generated_ack_is_not_written :
    let events : List ReceiveEvent :=
      [.packet 1 true [] 0, .packet 100000 true [] 1, .getAckFrame 2]
    (∀ event ∈ events, event.Valid) ∧
      (run receiveStep (newReceivedPacketHandler 512) events).map
          (fun result => result.2.map fun f => AckFrame.write 512 ⟨f.toAckBlocks, 0, 0⟩) =
        some [.error .bugInconsistentAckRanges] := by
  refine ⟨by simp [ReceiveEvent.Valid], by decide +kernel⟩

end MpQuic.AckHandler
