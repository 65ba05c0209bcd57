import MpQuic.Library.Run
import MpQuic.FlowControl.Defs

namespace MpQuic.FlowControl

open MpQuic.Library Function

-- The parameters of a connection as the connection parameters manager gives them.
-- The receive windows are constants. The largest increments come from the
-- configuration, the send windows from the peer.
def newConnectionParameters (sendStream sendConnection maxReceiveStream maxReceiveConnection : Nat) :
    ConnectionParameters where
  sendStreamFlowControlWindow := sendStream
  sendConnectionFlowControlWindow := sendConnection
  receiveStreamFlowControlWindow := 2 ^ 20 * 160
  receiveConnectionFlowControlWindow := 2 ^ 20 * 200
  maxReceiveStreamFlowControlWindow := maxReceiveStream
  maxReceiveConnectionFlowControlWindow := maxReceiveConnection

-- What the server takes when its configuration leaves the increments open.
def defaultMaxReceiveStreamFlowControlWindowServer : Nat := 2 ^ 20

def defaultMaxReceiveConnectionFlowControlWindowServer : Nat := 2 ^ 20 * 3 / 2

inductive Event where
  | newStream (streamID : Nat) (contributesToConnection : Bool)
  | updateHighestReceived (streamID byteOffset : Nat)
  | addBytesRead (streamID n : Nat) (now connNow : Int)
  | getWindowUpdates (force : Bool) (order : List Nat) (readings : Nat → Readings)

def step (m : FlowControlManager) : Event → Option (FlowControlManager × List WindowUpdate)
  | .newStream streamID contributes => some (m.newStream streamID contributes, [])
  | .updateHighestReceived streamID byteOffset =>
    some ((m.updateHighestReceived streamID byteOffset).1, [])
  | .addBytesRead streamID n now connNow => some (m.addBytesRead streamID n now connNow, [])
  | .getWindowUpdates force order readings => some (m.getWindowUpdates force order readings)

-- An update that also tunes the increment finds no more left of the window than
-- the largest increment gives back. The sums stay in the range of a byte count.
structure Tuned (c : FlowController) (r : Readings) : Prop where
  left : c.due = true → c.tunes r = true →
    c.receiveWindow ≤ c.bytesRead + c.maxReceiveWindowIncrement
  range : c.bytesRead + 2 * max c.receiveWindowIncrement c.maxReceiveWindowIncrement < 2 ^ 64

instance (c : FlowController) (r : Readings) : Decidable (Tuned c r) :=
  decidable_of_iff
    ((c.due = true → c.tunes r = true →
        c.receiveWindow ≤ c.bytesRead + c.maxReceiveWindowIncrement) ∧
      c.bytesRead + 2 * max c.receiveWindowIncrement c.maxReceiveWindowIncrement < 2 ^ 64)
    ⟨fun h => ⟨h.1, h.2⟩, fun h => ⟨h.left, h.range⟩⟩

-- The loop meets every stream once, and each controller is safe to update.
def Steady (m : FlowControlManager) : Event → Prop
  | .getWindowUpdates _ order readings =>
    order.Nodup ∧ (∀ id ∈ order, ∀ c ∈ m.streamFlowController id, Tuned c (readings id)) ∧
      Tuned m.connFlowController (readings 0)
  | _ => True

instance (m : FlowControlManager) : (event : Event) → Decidable (Steady m event)
  | .getWindowUpdates _ order readings =>
    inferInstanceAs (Decidable (_ ∧ (∀ id ∈ order, ∀ c ∈ m.streamFlowController id,
      Tuned c (readings id)) ∧ Tuned _ _))
  | .newStream _ _ | .updateHighestReceived _ _ | .addBytesRead _ _ _ _ => isTrue trivial

section Controller

variable {c : FlowController} {r : Readings}

theorem maybeUpdateWindow_window (c : FlowController) (r : Readings) :
    (c.maybeUpdateWindow r).controller.receiveWindow =
      if c.due then (c.bytesRead + (c.maybeAdjustWindowIncrement r).receiveWindowIncrement) % 2 ^ 64
      else c.receiveWindow := by
  simp only [FlowController.maybeUpdateWindow]
  split_ifs <;> rfl

theorem Tuned.window_le (h : Tuned c r) (hw : c.receiveWindow < 2 ^ 64) :
    c.receiveWindow ≤ (c.maybeUpdateWindow r).controller.receiveWindow := by
  have hrange := h.range
  rw [maybeUpdateWindow_window]
  by_cases hdue : c.due = true
  · have hleft := h.left hdue
    rw [if_pos hdue]
    simp only [FlowController.due, decide_eq_true_eq] at hdue
    simp only [FlowController.maybeAdjustWindowIncrement]
    split_ifs with htunes
    · have := hleft htunes
      simp only
      omega
    · omega
  · exact Nat.le_of_eq (if_neg hdue).symm

theorem maybeUpdateWindow_window_lt (hw : c.receiveWindow < 2 ^ 64) :
    (c.maybeUpdateWindow r).controller.receiveWindow < 2 ^ 64 := by
  rw [maybeUpdateWindow_window]
  split_ifs
  · exact Nat.mod_lt _ (by decide)
  · exact hw

end Controller

def Ensured (c d : FlowController) : Prop :=
  d = c ∨ (d.lastWindowUpdateTime = none ∧ d.receiveWindow = c.receiveWindow ∧
    d.bytesRead = c.bytesRead ∧ d.maxReceiveWindowIncrement = c.maxReceiveWindowIncrement ∧
    d.receiveWindowIncrement ≤ d.maxReceiveWindowIncrement)

variable {c d : FlowController} {m n : FlowControlManager}

theorem Ensured.ensureMinimum (h : Ensured c d) (inc : Nat) :
    Ensured c (d.ensureMinimumWindowIncrement inc) := by
  simp only [FlowController.ensureMinimumWindowIncrement]
  split_ifs
  · right
    rcases h with rfl | ⟨-, hw, hb, hm, -⟩
    · exact ⟨rfl, rfl, rfl, rfl, Nat.min_le_right _ _⟩
    · exact ⟨rfl, hw, hb, hm, Nat.min_le_right _ _⟩
  · exact h

theorem Ensured.trans {e : FlowController} (h₁ : Ensured c d) (h₂ : Ensured d e) : Ensured c e := by
  rcases h₂ with rfl | ⟨hl, hw, hb, hm, hi⟩
  · exact h₁
  · right
    rcases h₁ with rfl | ⟨-, hw', hb', hm', -⟩
    · exact ⟨hl, hw, hb, hm, hi⟩
    · exact ⟨hl, hw.trans hw', hb.trans hb', hm.trans hm', hi⟩

theorem Ensured.window (h : Ensured c d) : d.receiveWindow = c.receiveWindow := by
  rcases h with rfl | ⟨-, hw, -⟩
  · rfl
  · exact hw

theorem Ensured.tuned {r : Readings} (h : Ensured c d) (ht : Tuned c r) : Tuned d r := by
  rcases h with rfl | ⟨hlast, hw, hb, hm, hi⟩
  · exact ht
  · have hrange := ht.range
    refine ⟨?_, by omega⟩
    intro _ htunes
    simp [FlowController.tunes, hlast] at htunes

structure Grows (m n : FlowControlManager) : Prop where
  conn : m.connFlowController.receiveWindow ≤ n.connFlowController.receiveWindow
  stream : ∀ id c, m.streamFlowController id = some c →
    ∃ d, n.streamFlowController id = some d ∧ c.receiveWindow ≤ d.receiveWindow

structure Bounded (m : FlowControlManager) : Prop where
  conn : m.connFlowController.receiveWindow < 2 ^ 64
  stream : ∀ id c, m.streamFlowController id = some c → c.receiveWindow < 2 ^ 64
  fresh : ∀ id b, (newFlowController m.params id b).receiveWindow < 2 ^ 64

theorem Grows.refl (m : FlowControlManager) : Grows m m :=
  ⟨Nat.le_refl _, fun _ c hc => ⟨c, hc, Nat.le_refl _⟩⟩

theorem Grows.trans {o : FlowControlManager} (h₁ : Grows m n) (h₂ : Grows n o) : Grows m o := by
  refine ⟨Nat.le_trans h₁.conn h₂.conn, ?_⟩
  intro id c hc
  obtain ⟨d, hd, hcd⟩ := h₁.stream id c hc
  obtain ⟨e, he, hde⟩ := h₂.stream id d hd
  exact ⟨e, he, Nat.le_trans hcd hde⟩

theorem grows_setStream {streamID : Nat} (hb : Bounded m) (hd : d.receiveWindow < 2 ^ 64)
    (hle : ∀ c, m.streamFlowController streamID = some c → c.receiveWindow ≤ d.receiveWindow) :
    Grows m (m.setStream streamID d) ∧ Bounded (m.setStream streamID d) := by
  refine ⟨⟨Nat.le_refl _, ?_⟩, hb.conn, ?_, hb.fresh⟩
  · intro id c hc
    simp only [FlowControlManager.setStream]
    by_cases hid : id = streamID
    · rw [hid, update_self]
      exact ⟨d, rfl, hle c (hid ▸ hc)⟩
    · rw [update_of_ne hid]
      exact ⟨c, hc, Nat.le_refl _⟩
  · intro id c hc
    simp only [FlowControlManager.setStream] at hc
    by_cases hid : id = streamID
    · rw [hid, update_self] at hc
      cases hc
      exact hd
    · rw [update_of_ne hid] at hc
      exact hb.stream id c hc

theorem grows_conn (hb : Bounded m) (conn : FlowController)
    (hconn : m.connFlowController.receiveWindow ≤ conn.receiveWindow)
    (hlt : conn.receiveWindow < 2 ^ 64) :
    Grows m { m with connFlowController := conn } ∧
      Bounded { m with connFlowController := conn } :=
  ⟨⟨hconn, fun _ c hc => ⟨c, hc, Nat.le_refl _⟩⟩, hlt, hb.stream, hb.fresh⟩

structure Updated (m n : FlowControlManager) (touched : Nat → Prop) : Prop where
  grows : Grows m n
  bounded : Bounded n
  other : ∀ id, ¬touched id → n.streamFlowController id = m.streamFlowController id
  conn : Ensured m.connFlowController n.connFlowController

section Updates

variable {m : FlowControlManager} (force : Bool)

theorem streamWindowUpdate_updated {r : Readings} {streamID : Nat} (hb : Bounded m)
    (ht : ∀ c, m.streamFlowController streamID = some c → Tuned c r) :
    Updated m (FlowControlManager.streamWindowUpdate force r m streamID).1 (· = streamID) := by
  simp only [FlowControlManager.streamWindowUpdate]
  cases hc : m.streamFlowController streamID with
  | none => exact ⟨.refl m, hb, fun _ _ => rfl, Or.inl rfl⟩
  | some c =>
    have hw := hb.stream streamID c hc
    obtain ⟨hgrows, hbounded⟩ := grows_setStream (d := (c.maybeUpdateWindow r).controller) hb
      (maybeUpdateWindow_window_lt hw) fun c' hc' => by
        cases hc.symm.trans hc'
        exact (ht c hc).window_le hw
    have hother : ∀ id, ¬id = streamID →
        (m.setStream streamID (c.maybeUpdateWindow r).controller).streamFlowController id =
          m.streamFlowController id :=
      fun id hid => update_of_ne hid _ _
    simp only
    split_ifs
    · have hens := Ensured.ensureMinimum (c := m.connFlowController) (Or.inl rfl)
        ((c.maybeUpdateWindow r).newIncrement * 3 / 2)
      have hstep := grows_conn hbounded _ (Nat.le_of_eq hens.window.symm) (by
        rw [hens.window]
        exact hb.conn)
      exact ⟨hgrows.trans hstep.1, hstep.2, hother, hens⟩
    · exact ⟨hgrows, hbounded, hother, Or.inl rfl⟩
    · exact ⟨hgrows, hbounded, hother, Or.inl rfl⟩

variable {readings : Nat → Readings} {order : List Nat}

theorem streamWindowUpdates_updated (hn : order.Nodup) (hb : Bounded m)
    (ht : ∀ id ∈ order, ∀ c, m.streamFlowController id = some c → Tuned c (readings id)) :
    Updated m (FlowControlManager.streamWindowUpdates force readings m order).1 (· ∈ order) := by
  induction order generalizing m with
  | nil => exact ⟨.refl m, hb, fun _ _ => rfl, Or.inl rfl⟩
  | cons first rest ih =>
    obtain ⟨hfirst, hrest⟩ := List.nodup_cons.mp hn
    have hone := streamWindowUpdate_updated force hb (ht first List.mem_cons_self)
    have hlater := ih hrest hone.bounded (by
      intro id hid c hc
      rw [hone.other id fun he => hfirst (he ▸ hid)] at hc
      exact ht id (List.mem_cons_of_mem _ hid) c hc)
    refine ⟨hone.grows.trans hlater.grows, hlater.bounded, ?_, ?_⟩
    · intro id hid
      rw [List.mem_cons, not_or] at hid
      exact (hlater.other id hid.2).trans (hone.other id hid.1)
    · exact hone.conn.trans hlater.conn

theorem getWindowUpdates_grows (hb : Bounded m)
    (hs : Steady m (.getWindowUpdates force order readings)) :
    Grows m (m.getWindowUpdates force order readings).1 ∧
      Bounded (m.getWindowUpdates force order readings).1 := by
  obtain ⟨hn, hstreams, hconn⟩ := hs
  have hall := streamWindowUpdates_updated force hn hb hstreams
  have hlast := grows_conn hall.bounded _ ((hall.conn.tuned hconn).window_le hall.bounded.conn)
    (maybeUpdateWindow_window_lt hall.bounded.conn)
  exact ⟨hall.grows.trans hlast.1, hlast.2⟩

end Updates

theorem step_grows {event : Event} {out : List WindowUpdate} (hb : Bounded m) (hs : Steady m event)
    (hstep : step m event = some (n, out)) : Grows m n ∧ Bounded n := by
  cases event with
  | newStream streamID contributes =>
    cases hstep
    simp only [FlowControlManager.newStream]
    split
    · exact ⟨.refl m, hb⟩
    · next hc => exact grows_setStream hb (hb.fresh streamID contributes) (by simp [hc])
  | updateHighestReceived streamID byteOffset =>
    cases hstep
    simp only [FlowControlManager.updateHighestReceived]
    split
    · exact ⟨.refl m, hb⟩
    · next c hc =>
        have hsame : (c.updateHighestReceived byteOffset).1.receiveWindow = c.receiveWindow := by
          simp only [FlowController.updateHighestReceived]
          split_ifs <;> rfl
        obtain ⟨hg, hb'⟩ := grows_setStream (d := (c.updateHighestReceived byteOffset).1) hb
          (by rw [hsame]; exact hb.stream streamID c hc)
          (by rw [hsame, hc]; rintro _ ⟨⟩; exact Nat.le_refl _)
        split
        · exact ⟨hg, hb'⟩
        · split
          · have hnext := grows_conn hb' (m.connFlowController.incrementHighestReceived
              (c.updateHighestReceived byteOffset).2) (Nat.le_refl _) hb.conn
            exact ⟨hg.trans hnext.1, hnext.2⟩
          · exact ⟨hg, hb'⟩
  | addBytesRead streamID count now connNow =>
    cases hstep
    simp only [FlowControlManager.addBytesRead]
    split
    · exact ⟨.refl m, hb⟩
    · next c hc =>
        obtain ⟨hg, hb'⟩ := grows_setStream (d := c.addBytesRead count now) hb
          (hb.stream streamID c hc) (by rw [hc]; rintro _ ⟨⟩; exact Nat.le_refl _)
        split
        · have hnext := grows_conn hb' (m.connFlowController.addBytesRead count connNow)
            (Nat.le_refl _) hb.conn
          exact ⟨hg.trans hnext.1, hnext.2⟩
        · exact ⟨hg, hb'⟩
  | getWindowUpdates force order readings =>
    cases hstep
    exact getWindowUpdates_grows force hb hs

theorem run_grows {events : List Event} (hb : Bounded m) (ha : Along step Steady m events) :
    ∃ n log, run step m events = some (n, log) ∧ Grows m n ∧ Bounded n := by
  refine run_progress (fun _ _ n => Grows m n ∧ Bounded n) ?_ [] [] m events ⟨.refl m, hb⟩ ha
  intro _ _ state event hinv hcond
  obtain ⟨⟨next, out⟩, hstep⟩ : ∃ pair, step state event = some pair := by
    cases event <;> exact ⟨_, rfl⟩
  obtain ⟨hgrows, hbounded⟩ := step_grows hinv.2 hcond hstep
  exact ⟨next, out, hstep, hinv.1.trans hgrows, hbounded⟩

theorem bounded_newFlowControlManager (sendStream sendConnection maxStream maxConnection : Nat) :
    Bounded (newFlowControlManager
      (newConnectionParameters sendStream sendConnection maxStream maxConnection)) := by
  have hfresh : ∀ id b, (newFlowController (newConnectionParameters sendStream sendConnection
      maxStream maxConnection) id b).receiveWindow < 2 ^ 64 := by
    intro id b
    simp only [newFlowController, newConnectionParameters]
    split_ifs <;> decide
  exact ⟨hfresh 0 false, by simp [newFlowControlManager], hfresh⟩

theorem Grows.accepts (h : Grows m n) {id byteOffset : Nat}
    (hc : m.streamFlowController id = some c)
    (hd : n.streamFlowController id = some d) (hoffset : byteOffset ≤ c.receiveWindow)
    (hstream : d.highestReceived ≤ c.receiveWindow)
    (hconn : n.connFlowController.highestReceived + (byteOffset - d.highestReceived) ≤
      m.connFlowController.receiveWindow) :
    (n.updateHighestReceived id byteOffset).2 = none := by
  have hgrows := h.conn
  obtain ⟨d', hd', hle⟩ := h.stream id c hc
  cases hd.symm.trans hd'
  have hstays : (d.updateHighestReceived byteOffset).1.checkFlowControlViolation = false := by
    simp only [FlowController.updateHighestReceived, FlowController.checkFlowControlViolation]
    split_ifs <;> simp only [decide_eq_false_iff_not] <;> omega
  have hincrement : (d.updateHighestReceived byteOffset).2 = byteOffset - d.highestReceived := by
    simp only [FlowController.updateHighestReceived]
    split_ifs
    · rfl
    · simp only
      omega
  have hall : ((n.setStream id (d.updateHighestReceived byteOffset).1).connFlowController
      |>.incrementHighestReceived (d.updateHighestReceived byteOffset).2
      |>.checkFlowControlViolation) = false := by
    simp only [FlowController.incrementHighestReceived, FlowController.checkFlowControlViolation,
      FlowControlManager.setStream, hincrement, decide_eq_false_iff_not]
    omega
  simp only [FlowControlManager.updateHighestReceived, hd, hstays, hall, Bool.false_eq_true,
    if_false]
  split_ifs <;> rfl

-- From one state of a run to a later one no window shrinks, so a peer that keeps
-- to the earlier windows is not accused later.
theorem receive_windows_never_shrink (sendStream sendConnection maxStream maxConnection : Nat)
    (first second : List Event)
    (ha : Along step Steady (newFlowControlManager
      (newConnectionParameters sendStream sendConnection maxStream maxConnection))
      (first ++ second)) :
    ∃ m n earlier later,
      run step (newFlowControlManager
        (newConnectionParameters sendStream sendConnection maxStream maxConnection)) first =
          some (m, earlier) ∧
      run step m second = some (n, later) ∧
      m.connFlowController.receiveWindow ≤ n.connFlowController.receiveWindow ∧
      ∀ id c, m.streamFlowController id = some c →
        ∃ d, n.streamFlowController id = some d ∧ c.receiveWindow ≤ d.receiveWindow ∧
          ∀ byteOffset, byteOffset ≤ c.receiveWindow → d.highestReceived ≤ c.receiveWindow →
            n.connFlowController.highestReceived + (byteOffset - d.highestReceived) ≤
              m.connFlowController.receiveWindow →
            (n.updateHighestReceived id byteOffset).2 = none := by
  have hfresh := bounded_newFlowControlManager sendStream sendConnection maxStream maxConnection
  obtain ⟨m, earlier, hm, -, hbounded⟩ := run_grows hfresh ha.left
  obtain ⟨n, later, hn, hgrows, -⟩ := run_grows hbounded ((Along.append hm).mp ha).2
  refine ⟨m, n, earlier, later, hm, hn, hgrows.conn, ?_⟩
  intro id c hc
  obtain ⟨d, hd, hle⟩ := hgrows.stream id c hc
  exact ⟨d, hd, hle, fun byteOffset => hgrows.accepts hc hd⟩

theorem receive_windows_never_shrink_example :
    let start := newFlowControlManager (newConnectionParameters 0 0 (2 ^ 20 * 160) (2 ^ 20 * 240))
    let first : List Event := [.newStream 5 true, .updateHighestReceived 5 (2 ^ 20 * 110),
      .addBytesRead 5 (2 ^ 20 * 110) 0 0]
    let second : List Event := [.getWindowUpdates false [5] fun _ => ⟨1, 1, 100, []⟩]
    Along step Steady start (first ++ second) ∧
    ∃ m n earlier later, run step start first = some (m, earlier) ∧
      run step m second = some (n, later) ∧
      m.connFlowController.receiveWindow ≤ n.connFlowController.receiveWindow := by
  intro start first second
  have ha : Along step Steady start (first ++ second) := by decide
  obtain ⟨m, n, earlier, later, hm, hn, hconn, -⟩ :=
    receive_windows_never_shrink 0 0 (2 ^ 20 * 160) (2 ^ 20 * 240) first second ha
  exact ⟨ha, m, n, earlier, later, hm, hn, hconn⟩

-- With the server's defaults the largest increment is far below the first window.
-- After 100 MB of a stream were read the tuned increment takes 59 MB back, and the
-- peer that uses what it was given is accused of sending too much.
theorem server_takes_window_back :
    let start := newFlowControlManager (newConnectionParameters 0 0
      defaultMaxReceiveStreamFlowControlWindowServer
      defaultMaxReceiveConnectionFlowControlWindowServer)
    let first : List Event := [.newStream 5 true]
    let second : List Event := [.updateHighestReceived 5 (2 ^ 20 * 100),
      .addBytesRead 5 (2 ^ 20 * 100) 0 0, .getWindowUpdates false [5] fun _ => ⟨1, 1, 100, []⟩]
    ((run step start first).map fun last =>
      (last.1.streamFlowController 5).map (·.receiveWindow)) = some (some (2 ^ 20 * 160)) ∧
    ((run step start (first ++ second)).map fun last =>
      (last.1.streamFlowController 5).map (·.receiveWindow)) = some (some (2 ^ 20 * 101)) ∧
    ((run step start (first ++ second)).map fun last =>
      (last.1.updateHighestReceived 5 (2 ^ 20 * 160)).2) =
        some (some (.flowControlReceivedTooMuchData
          "Received 167772160 bytes on stream 5, allowed 105906176 bytes")) := by
  decide

end MpQuic.FlowControl
