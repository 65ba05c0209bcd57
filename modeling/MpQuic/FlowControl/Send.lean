import MpQuic.FlowControl.Defs

namespace MpQuic.FlowControl.FlowControlManager

variable {m : FlowControlManager} {streamID : Nat} {c : FlowController} (n : Nat)

theorem streamFlowController_addBytesSent (hc : m.streamFlowController streamID = some c) :
    (m.addBytesSent streamID n).streamFlowController =
      Function.update m.streamFlowController streamID (some (c.addBytesSent n)) := by
  simp only [addBytesSent, hc]
  split <;> rfl

theorem connFlowController_addBytesSent (hc : m.streamFlowController streamID = some c) :
    (m.addBytesSent streamID n).connFlowController =
      if c.contributesToConnection then m.connFlowController.addBytesSent n
      else m.connFlowController := by
  simp only [addBytesSent, hc]
  split <;> rfl

theorem params_addBytesSent : (m.addBytesSent streamID n).params = m.params := by
  unfold addBytesSent
  split
  · rfl
  · dsimp only
    split <;> rfl

theorem bytesSent_add_le (hc : m.streamFlowController streamID = some c) (hpos : 0 < n)
    (hn : n ≤ m.sendWindowSize streamID) :
    c.bytesSent + n ≤ c.getSendWindow m.params ∧
      (c.contributesToConnection = true →
        m.connFlowController.bytesSent + n ≤ m.connFlowController.getSendWindow m.params) := by
  simp only [sendWindowSize, hc, FlowController.sendWindowSize] at hn
  split_ifs at hn <;> simp_all <;> omega

end MpQuic.FlowControl.FlowControlManager
