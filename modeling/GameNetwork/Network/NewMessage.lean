import GameNetwork.Network.FrameDecoder
import GameNetwork.Network.MsgDispatcher

/-!
# The handler of a new message

What `MKServer::MKServer` (`GameServer/MKServer.cpp`) and `GameClient::Connect`
(`GameClient/GameClient.cpp`) install on a connection: they make the message
of a received frame and push it under its own role id, without a look at
whether there is one. `newMessage_completes_iff` says for which accepted frames
this goes well.
-/

namespace GameNetwork

open Lib GameNetwork.Frame

/-- The body of both handlers: `auto msg = TransmitMessage(ptr)`, then
`recv_msg_dispatcher_.Push(msg->role_id, msg)`. -/
def onNewMsg (recvMsgDispatcher : MsgDispatcher) (ptr : BaseMsgWithBuffer) :
    Except Fault MsgDispatcher := do
  match ← transmitMessage ptr with
  | none => .error .nullDereference
  | some msg => recvMsgDispatcher.push msg.base.roleId (some msg)

/-- The handler that `MKServer::MKServer` sets. -/
def MKServer.onNewMsgWithBuffer : MsgDispatcher → BaseMsgWithBuffer → Except Fault MsgDispatcher :=
  onNewMsg

/-- The handler that `GameClient::Connect` sets. -/
def GameClient.onNewMsgWithBuffer : MsgDispatcher → BaseMsgWithBuffer → Except Fault MsgDispatcher :=
  onNewMsg

/-- A type in range has a class unless it is `DEFAULT`. -/
theorem hasClass_iff {s : List Byte} (h : TypeInRange s) :
    (messageType s).HasClass ↔ messageType s ≠ .default := by
  obtain ⟨hlow, hhigh⟩ := h
  rw [BitVec.lt_def] at hlow hhigh
  have hlow' : 0 < (messageType s).num.toNat := hlow
  have hhigh' : (messageType s).num.toNat < 6 := hhigh
  have eq_iff : ∀ n : BitVec 8, messageType s = ⟨n⟩ ↔ (messageType s).num.toNat = n.toNat := fun n =>
    ⟨fun h => by rw [h], fun h => congrArg MessageType.mk (BitVec.eq_of_toNat_eq h)⟩
  have hdefault : messageType s = .default ↔ (messageType s).num.toNat = 1 := eq_iff 1
  have hcontrol : messageType s = .control ↔ (messageType s).num.toNat = 2 := eq_iff 2
  have hping : messageType s = .ping ↔ (messageType s).num.toNat = 3 := eq_iff 3
  have hroom : messageType s = .enterRoom ↔ (messageType s).num.toNat = 4 := eq_iff 4
  have hstart : messageType s = .gameStart ↔ (messageType s).num.toNat = 5 := eq_iff 5
  rw [MessageType.HasClass, Ne, hdefault, hcontrol, hping, hroom, hstart]
  omega

section Handler

variable {s : List Byte} {d : MsgDispatcher}

theorem length_body_received (h : Accepted s) :
    (received s).bodyBuffer.readable.length = (packSize s).toNat - 17 := by
  have hw := h.whole
  have hadd := h.bodySize_add
  rw [received, Buffer.readable_tiny_appended, length_body (by omega), bodySize_of_le h.covers]

/-- `TransmitMessage` on an accepted frame. -/
theorem transmitMessage_received (h : Accepted s) :
    transmitMessage (received s) =
      if (messageType s).HasClass ∧ (packSize s).toNat < 25 then
        .error (.assertion "ReadableSize() >= sizeof(T)")
      else .ok (transmitted (header s) (received s).bodyBuffer.readable) := by
  have hcovers := h.covers
  rw [transmitMessage_eq (Buffer.valid_tiny_appended _) rfl, length_body_received h]
  have hiff : (received s).baseMessage.messageType.HasClass ∧ (packSize s).toNat - 17 < 8 ↔
      (messageType s).HasClass ∧ (packSize s).toNat < 25 :=
    and_congr_right fun _ => by omega
  exact if_congr hiff rfl rfl

theorem onNewMsg_ok_iff (hd : d.Serving) (h : Accepted s) :
    (∃ d', onNewMsg d (received s) = .ok d') ↔
      messageType s ≠ .default ∧ 25 ≤ (packSize s).toNat := by
  rw [← hasClass_iff h.type_ok]
  have hrun : onNewMsg d (received s) = (transmitMessage (received s)).bind fun
      | none => .error .nullDereference
      | some msg => d.push msg.base.roleId (some msg) := rfl
  rw [hrun, transmitMessage_received h]
  by_cases hclass : (messageType s).HasClass
  · by_cases hbody : (packSize s).toNat < 25
    · rw [if_pos ⟨hclass, hbody⟩]
      exact iff_of_false (fun ⟨_, hr⟩ => by cases hr) fun ⟨_, hle⟩ => by omega
    · rw [if_neg fun hc => hbody hc.2]
      obtain ⟨m, hm⟩ := Option.isSome_iff_exists.mp
        ((transmitted_isSome (header s) (received s).bodyBuffer.readable).mpr hclass)
      rw [hm]
      have hpush : ∃ d', d.push m.base.roleId (some m) = .ok d' := MsgDispatcher.push_ok hd _ _
      exact iff_of_true hpush ⟨hclass, by omega⟩
  · rw [if_neg fun hc => hclass hc.1]
    have hnone : transmitted (header s) (received s).bodyBuffer.readable = none := by
      rw [← Option.not_isSome_iff_eq_none, transmitted_isSome]
      exact hclass
    rw [hnone]
    exact iff_of_false (fun ⟨_, hr⟩ => by cases hr) fun hc => hclass hc.1

/-- **The handlers complete exactly on frames of a type other than `DEFAULT` with at least eight
bytes of body.** -/
theorem newMessage_completes_iff (hd : d.Serving) (h : Accepted s) :
    ((∃ d', MKServer.onNewMsgWithBuffer d (received s) = .ok d') ↔
      messageType s ≠ .default ∧ 25 ≤ (packSize s).toNat) ∧
    ((∃ d', GameClient.onNewMsgWithBuffer d (received s) = .ok d') ↔
      messageType s ≠ .default ∧ 25 ≤ (packSize s).toNat) :=
  ⟨onNewMsg_ok_iff hd h, onNewMsg_ok_iff hd h⟩

end Handler

/-- The dispatcher of a client, started. -/
def clientDispatcher : MsgDispatcher := (MsgDispatcher.new 1 true).start.1

theorem clientDispatcher_serving : clientDispatcher.Serving :=
  MsgDispatcher.serving_start (MsgDispatcher.serving_new _ _) (by decide)

/-- A message of no class: its type is `DEFAULT` and its frame has no body. -/
def defaultFrame : List Byte := (Message.plain BaseMessage.new).frame

/-- A frame of type `CONTROL` without a body. -/
def bareControlFrame : List Byte :=
  (Message.plain { BaseMessage.new with messageType := .control }).frame

theorem newMessage_faults :
    (Accepted defaultFrame ∧
      MKServer.onNewMsgWithBuffer clientDispatcher (received defaultFrame) = .error .nullDereference ∧
      GameClient.onNewMsgWithBuffer clientDispatcher (received defaultFrame) =
        .error .nullDereference) ∧
    (Accepted bareControlFrame ∧
      MKServer.onNewMsgWithBuffer clientDispatcher (received bareControlFrame) =
        .error (.assertion "ReadableSize() >= sizeof(T)") ∧
      GameClient.onNewMsgWithBuffer clientDispatcher (received bareControlFrame) =
        .error (.assertion "ReadableSize() >= sizeof(T)")) :=
  ⟨⟨⟨by decide, by decide, by decide, by decide, by decide⟩, rfl, rfl⟩,
    ⟨⟨by decide, by decide, by decide, by decide, by decide⟩, rfl, rfl⟩⟩

theorem newMessage_completes_ping :
    ∃ d', GameClient.onNewMsgWithBuffer clientDispatcher
      (received (Message.ping PingMessage.new).frame) = .ok d' :=
  (newMessage_completes_iff clientDispatcher_serving
    ⟨by decide, by decide, by decide, by decide, by decide⟩).2.mpr ⟨by decide, by decide⟩

end GameNetwork
