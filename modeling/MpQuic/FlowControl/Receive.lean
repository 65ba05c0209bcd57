import MpQuic.Library.Sum
import MpQuic.FlowControl.Defs

namespace MpQuic.FlowControl

open MpQuic.Library Function

-- The errors a receiver reports for the frames that come in, given as the stream
-- and the offset at which they end.
def FlowControlManager.receive (m : FlowControlManager) :
    List (Nat × Nat) → List FlowControlError
  | [] => []
  | (streamID, byteOffset) :: rest =>
    (m.updateHighestReceived streamID byteOffset).2.toList ++
      (m.updateHighestReceived streamID byteOffset).1.receive rest

def FlowControlManager.counted (m : FlowControlManager) (streamID : Nat) : Nat :=
  match m.streamFlowController streamID with
  | none => 0
  | some c => if c.contributesToConnection then c.highestReceived else 0

structure Received (peer : FlowControlManager) (ids : List Nat) (reach : Nat → Nat)
    (m : FlowControlManager) : Prop where
  window : m.connFlowController.receiveWindow = peer.connFlowController.receiveWindow
  kept : ∀ id c, peer.streamFlowController id = some c →
    ∃ d, m.streamFlowController id = some d ∧ d.receiveWindow = c.receiveWindow ∧
      d.contributesToConnection = c.contributesToConnection
  known : ∀ id d, m.streamFlowController id = some d →
    ∃ c, peer.streamFlowController id = some c ∧
      d.contributesToConnection = c.contributesToConnection ∧
      d.highestReceived ≤ reach id ∧ d.highestReceived ≤ d.receiveWindow
  total : m.connFlowController.highestReceived ≤ (ids.map m.counted).sum

section Receive

variable {peer m : FlowControlManager} {ids : List Nat} {reach : Nat → Nat} {streamID : Nat}

theorem updateHighestReceived_highest (d : FlowController) (byteOffset : Nat) :
    (d.updateHighestReceived byteOffset).1 =
        { d with highestReceived := max d.highestReceived byteOffset } ∧
      d.highestReceived + (d.updateHighestReceived byteOffset).2 =
        max d.highestReceived byteOffset := by
  simp only [FlowController.updateHighestReceived]
  split_ifs with hgt
  · rw [Nat.max_eq_right (Nat.le_of_lt hgt)]
    exact ⟨rfl, by simp only; omega⟩
  · rw [Nat.max_eq_left (Nat.le_of_not_lt hgt)]
    exact ⟨rfl, rfl⟩

def allowance (peer : FlowControlManager) (reach : Nat → Nat) (streamID : Nat) : Nat :=
  match peer.streamFlowController streamID with
  | none => 0
  | some c => if c.contributesToConnection then reach streamID else 0

theorem Received.counted_le (h : Received peer ids reach m) (id : Nat) :
    m.counted id ≤ allowance peer reach id := by
  simp only [FlowControlManager.counted]
  split
  · exact Nat.zero_le _
  · next d hd =>
      obtain ⟨c, hc, hcontr, hreach, -⟩ := h.known id d hd
      simp only [allowance, hc, hcontr]
      split_ifs <;> omega

theorem Received.violates (h : Received peer ids reach m)
    (hall : (ids.map (allowance peer reach)).sum ≤ peer.connFlowController.receiveWindow) :
    m.connFlowController.checkFlowControlViolation = false := by
  have hsum : (ids.map m.counted).sum ≤ (ids.map (allowance peer reach)).sum :=
    List.sum_le_sum fun id _ => h.counted_le id
  have := h.total
  have := h.window
  simp only [FlowController.checkFlowControlViolation, decide_eq_false_iff_not]
  omega

def FlowControlManager.recorded (m : FlowControlManager) (streamID : Nat)
    (d conn : FlowController) : FlowControlManager :=
  { m.setStream streamID d with connFlowController := conn }

theorem recorded_controller (m : FlowControlManager) (streamID : Nat) (d conn : FlowController) :
    (m.recorded streamID d conn).streamFlowController =
      update m.streamFlowController streamID (some d) := rfl

theorem Received.record (h : Received peer ids reach m) (hn : ids.Nodup) (hid : streamID ∈ ids)
    {d : FlowController} (hd : m.streamFlowController streamID = some d) {byteOffset : Nat}
    (hreach : byteOffset ≤ reach streamID) (hwindow : byteOffset ≤ d.receiveWindow)
    (conn : FlowController) (hconn : conn.receiveWindow = m.connFlowController.receiveWindow)
    (hcharge : conn.highestReceived ≤ m.connFlowController.highestReceived +
      if d.contributesToConnection then (d.updateHighestReceived byteOffset).2 else 0) :
    Received peer ids reach
      (m.recorded streamID (d.updateHighestReceived byteOffset).1 conn) := by
  obtain ⟨hstate, hincrement⟩ := updateHighestReceived_highest d byteOffset
  obtain ⟨c, hc, hcontr, hold, hbelow⟩ := h.known streamID d hd
  refine ⟨hconn.trans h.window, ?_, ?_, ?_⟩
  · intro id c' hc'
    obtain ⟨d', hd', hwin, hflag⟩ := h.kept id c' hc'
    rw [recorded_controller]
    by_cases he : id = streamID
    · rw [he, hd] at hd'
      cases hd'
      rw [he, update_self]
      exact ⟨_, rfl, by rw [hstate, hwin], by rw [hstate, hflag]⟩
    · rw [update_of_ne he]
      exact ⟨d', hd', hwin, hflag⟩
  · intro id d' hd'
    rw [recorded_controller] at hd'
    by_cases he : id = streamID
    · rw [he, update_self] at hd'
      cases hd'
      rw [he, hstate]
      exact ⟨c, hc, hcontr, by simp only; omega, by simp only; omega⟩
    · rw [update_of_ne he] at hd'
      exact h.known id d' hd'
  · have hself : (m.recorded streamID (d.updateHighestReceived byteOffset).1 conn).counted streamID =
        m.counted streamID +
          if d.contributesToConnection then (d.updateHighestReceived byteOffset).2 else 0 := by
      simp only [FlowControlManager.counted, recorded_controller, update_self, hd, hstate]
      split_ifs <;> omega
    have hother : ∀ id, id ≠ streamID →
        (m.recorded streamID (d.updateHighestReceived byteOffset).1 conn).counted id =
          m.counted id := by
      intro id he
      simp only [FlowControlManager.counted, recorded_controller, update_of_ne he]
    rw [sum_map_of_update hn hid hother hself]
    exact Nat.le_trans hcharge (Nat.add_le_add_right h.total _)

end Receive

theorem receive_eq_nil {peer m : FlowControlManager} {ids : List Nat} {reach : Nat → Nat}
    (hn : ids.Nodup)
    (hall : (ids.map (allowance peer reach)).sum ≤ peer.connFlowController.receiveWindow)
    (arrivals : List (Nat × Nat))
    (harrivals : ∀ a ∈ arrivals, a.1 ∈ ids ∧ a.2 ≤ reach a.1 ∧
      ∃ c, peer.streamFlowController a.1 = some c ∧ a.2 ≤ c.receiveWindow)
    (h : Received peer ids reach m) : m.receive arrivals = [] := by
  induction arrivals generalizing m with
  | nil => rfl
  | cons first rest ih =>
    obtain ⟨streamID, byteOffset⟩ := first
    obtain ⟨hid, hreach, c, hc, hwindow⟩ := harrivals _ List.mem_cons_self
    obtain ⟨d, hd, hwin, -⟩ := h.kept streamID c hc
    obtain ⟨hstate, -⟩ := updateHighestReceived_highest d byteOffset
    obtain ⟨-, -, -, -, hbelow⟩ := h.known streamID d hd
    have hstream : (d.updateHighestReceived byteOffset).1.checkFlowControlViolation = false := by
      simp only [hstate, FlowController.checkFlowControlViolation, decide_eq_false_iff_not]
      simp only at hwindow
      omega
    have hflag : (d.updateHighestReceived byteOffset).1.contributesToConnection =
        d.contributesToConnection := by rw [hstate]
    have hnext : (m.updateHighestReceived streamID byteOffset).2 = none ∧
        Received peer ids reach (m.updateHighestReceived streamID byteOffset).1 := by
      simp only [FlowControlManager.updateHighestReceived, hd, hstream, hflag,
        Bool.false_eq_true, if_false]
      by_cases hcontr : d.contributesToConnection = true
      · have hrec := h.record hn hid hd hreach (hwin ▸ hwindow)
          (m.connFlowController.incrementHighestReceived (d.updateHighestReceived byteOffset).2)
          rfl (by rw [if_pos hcontr]; exact Nat.mod_le _ _)
        rw [if_pos hcontr]
        exact ⟨if_neg fun hover => Bool.false_ne_true ((hrec.violates hall).symm.trans hover), hrec⟩
      · rw [if_neg hcontr]
        exact ⟨rfl, h.record hn hid hd hreach (hwin ▸ hwindow) m.connFlowController rfl
          (by simp [hcontr])⟩
    rw [FlowControlManager.receive, hnext.1, Option.toList_none, List.nil_append]
    exact ih (fun a ha => harrivals a (List.mem_cons_of_mem _ ha)) hnext.2

end MpQuic.FlowControl
