import GameNetwork.GameServer.RoomThreads

/-!
# Lockstep

`Control` may be called between any two statements of `Update`; the other
handlers run between two calls of it. `Lockstep` is what every statement
keeps: the recorded inputs, those swapped out, and those collected are all
that `Control` has been given, in that order, and a recorded input has the
number of its frame as its tick once it has been stamped.

`broadcasts_run` says what `Update` sends a role that is in the room once: the
inputs of the frames it records. `lockstep_agreement` puts this together.
-/

namespace GameNetwork

open Lib

/-- The object but for its tick. -/
def ControlMessage.withoutTick (m : ControlMessage) : ControlMessage := { m with tick := 0 }

namespace RoomThreads

/-- Handlers other than `Control` run between two calls of `Update`. -/
def BetweenUpdates (s : RoomThreads) : RoomEvent → Prop
  | .control _ | .main => True
  | _ => s.main = .outside

instance (s : RoomThreads) : ∀ e, Decidable (s.BetweenUpdates e)
  | .control _ | .main => .isTrue trivial
  | .enterRoom .. | .onRoleDisconnect _ | .join .. => inferInstanceAs (Decidable (s.main = .outside))

/-- What `Control` is given. -/
def given (events : List RoomEvent) : List ControlMessage :=
  events.filterMap fun
    | .control msg => some msg
    | _ => none

/-- A statement of `Update` finds the role in the room, and once. -/
def InRoomOnce (roleId : RoleId) (s : RoomThreads) (e : RoomEvent) : Prop :=
  e = .main → s.room.roleIds.count roleId = 1

instance (roleId : RoleId) (s : RoomThreads) (e : RoomEvent) : Decidable (InRoomOnce roleId s e) :=
  inferInstanceAs (Decidable (_ → _))

/-- A recorded input has the number of its frame as its tick, or will be given it. -/
structure Lockstep (s : RoomThreads) : Prop extends InputsInOrder s where
  numbered : ∀ frame ∈ s.room.frameInputRecordVec, ∀ input ∈ frame.sendMsg,
    input ∈ s.unsent → frame.frameNumber = s.room.frameCounter
  ticks : ∀ frame ∈ s.room.frameInputRecordVec, ∀ input ∈ frame.sendMsg,
    input ∈ s.unstamped ∨ s.room.inputs[input]?.map (·.tick) = some frame.frameNumber

/-! ## One step -/

section Step

variable {s : RoomThreads}

theorem lockstep_new : Lockstep new :=
  ⟨inputsInOrder_new, fun _ h => (by cases h), fun _ h => (by cases h)⟩

/-- One statement of `Update`. -/
theorem lockstep_main (h : s.Lockstep) : s.stepMain.Lockstep := by
  suffices hframes : (∀ frame ∈ s.stepMain.room.frameInputRecordVec, ∀ input ∈ frame.sendMsg,
        input ∈ s.stepMain.unsent → frame.frameNumber = s.stepMain.room.frameCounter) ∧
      ∀ frame ∈ s.stepMain.room.frameInputRecordVec, ∀ input ∈ frame.sendMsg,
        input ∈ s.stepMain.unstamped ∨
          s.stepMain.room.inputs[input]?.map (·.tick) = some frame.frameNumber from
    ⟨inputsInOrder_main h.toInputsInOrder, hframes.1, hframes.2⟩
  have hnumbered := h.numbered
  have hticks := h.ticks
  cases hpc : s.main with
  | outside =>
    simp only [unsent, unstamped, hpc] at hnumbered hticks
    simp only [stepMain, hpc]
    exact ⟨fun _ _ _ _ hi => (by cases hi), hticks⟩
  | swap =>
    simp only [unsent, unstamped, hpc] at hnumbered hticks
    simp only [stepMain, hpc]
    exact ⟨fun _ _ _ _ hi => (by cases hi), hticks⟩
  | record =>
    have hnew : ∀ input ∈ s.room.sendMsg, input ∉ s.room.recorded := fun input hi =>
      h.not_recorded (by rw [unrecorded, hpc]; exact hi)
    simp only [unsent, unstamped, hpc] at hnumbered hticks
    simp only [stepMain, hpc]
    refine ⟨fun frame hf input hi hu => ?_, fun frame hf input hi => ?_⟩
    · rcases List.mem_append.mp hf with hf | hf
      · exact absurd (mem_recorded hf hi) (hnew input hu)
      · rw [List.mem_singleton.mp hf]
        rfl
    · rcases List.mem_append.mp hf with hf | hf
      · rcases hticks frame hf input hi with hu | ht
        · cases hu
        · exact .inr ht
      · rw [List.mem_singleton.mp hf] at hi
        exact .inl hi
  | loop todo =>
    cases todo with
    | nil =>
      simp only [unsent, unstamped, hpc] at hnumbered hticks
      simp only [stepMain, hpc]
      exact ⟨fun _ _ _ _ hi => (by cases hi), hticks⟩
    | cons input todo =>
      simp only [unsent, unstamped, hpc] at hnumbered hticks
      simp only [stepMain, hpc]
      refine ⟨hnumbered, fun frame hf i hi => ?_⟩
      show i ∈ todo ∨
        (s.room.inputs.modify input fun m => { m with tick := s.room.frameCounter })[i]?.map (·.tick) = _
      rw [List.getElem?_modify]
      by_cases heq : input = i
      · -- the input is stamped with the number of its own frame
        subst heq
        rw [List.getElem?_eq_getElem (h.lt (mem_recorded (s := s) hf hi)),
          hnumbered frame hf input hi List.mem_cons_self]
        exact .inr (by simp)
      · rcases hticks frame hf i hi with hu | ht
        · rcases List.mem_cons.mp hu with hu | hu
          · exact absurd hu.symm heq
          · exact .inl hu
        · refine .inr ?_
          rw [← ht]
          simp [heq]
  | send input todo =>
    simp only [unsent, unstamped, hpc] at hnumbered hticks
    simp only [stepMain, hpc, broadcast, GameServerExample.broadcast,
      GameServerExample.sendMessageByRoleIds_eq]
    exact ⟨fun frame hf i hi hu => hnumbered frame hf i hi (List.mem_cons_of_mem _ hu), hticks⟩

theorem lockstep_step {t : RoomThreads} {e : RoomEvent} (h : s.Lockstep) (hb : s.BetweenUpdates e)
    (ht : step s e = .ok t) : t.Lockstep := by
  have horder := inputsInOrder_step h.toInputsInOrder ht
  obtain ⟨msg, rfl, rfl⟩ | ⟨rfl, rfl⟩ | ⟨hcontrol, hmain, hsame⟩ := step_cases ht
  · refine ⟨horder, h.numbered, fun frame hf input hi => ?_⟩
    show input ∈ s.unstamped ∨ (s.room.inputs ++ [msg])[input]?.map (·.tick) = some frame.frameNumber
    rw [List.getElem?_append_left (h.lt (mem_recorded hf hi))]
    exact h.ticks frame hf input hi
  · exact lockstep_main h
  · -- the frame counter may change, but nothing is left to send
    have hout : s.main = .outside := by
      cases e with
      | control msg => exact absurd rfl (hcontrol msg)
      | main => exact absurd rfl hmain
      | enterRoom roleId msg now => exact hb
      | onRoleDisconnect roleId => exact hb
      | join msg now => exact hb
    refine ⟨horder, fun frame _ input _ hu => ?_, fun frame hf input hi => ?_⟩
    · rw [hsame.unsent, unsent, hout] at hu
      cases hu
    · rw [hsame.record] at hf
      rw [hsame.unstamped, hsame.inputs]
      exact h.ticks frame hf input hi

end Step

/-! ## Runs -/

section Run

variable {s t : RoomThreads} {events : List RoomEvent}

theorem lockstep_run (h : s.Lockstep) (hb : EachStep step BetweenUpdates s events)
    (hrun : run step s events = .ok t) : t.Lockstep :=
  run_invariant (fun _ _ _ h hb ht => lockstep_step h hb ht) h hb hrun

/-- A statement changes the objects in their ticks only. -/
theorem inputs_main (s : RoomThreads) :
    s.stepMain.room.inputs.map (·.withoutTick) = s.room.inputs.map (·.withoutTick) := by
  unfold stepMain
  split <;> try rfl
  · apply List.ext_getElem?
    intro i
    simp only [GameServerExample.stamp, List.getElem?_map, List.getElem?_modify]
    cases s.room.inputs[i]? with
    | none => rfl
    | some m => simp only [Option.map_some]; split <;> rfl
  · simp only [broadcast, GameServerExample.broadcast, GameServerExample.sendMessageByRoleIds_eq]

theorem inputs_step {e : RoomEvent} (ht : step s e = .ok t) :
    t.room.inputs.map (·.withoutTick) =
      s.room.inputs.map (·.withoutTick) ++ (given [e]).map (·.withoutTick) := by
  obtain ⟨msg, rfl, rfl⟩ | ⟨rfl, rfl⟩ | ⟨hcontrol, -, hsame⟩ := step_cases ht
  · exact List.map_append
  · rw [inputs_main]
    exact (List.append_nil _).symm
  · have hnone : given [e] = [] := by
      cases e with
      | control msg => exact absurd rfl (hcontrol msg)
      | _ => rfl
    rw [hsame.inputs, hnone]
    exact (List.append_nil _).symm

theorem inputs_run (hrun : run step s events = .ok t) :
    t.room.inputs.map (·.withoutTick) =
      s.room.inputs.map (·.withoutTick) ++ (given events).map (·.withoutTick) := by
  induction events generalizing s with
  | nil => cases hrun; exact (List.append_nil _).symm
  | cons e events ih =>
    obtain ⟨s', hs', hrun⟩ := run_cons_eq_ok.mp hrun
    have hgiven : given (e :: events) = given [e] ++ given events := List.filterMap_append (l := [e])
    rw [ih hrun, inputs_step hs', hgiven, List.map_append, List.append_assoc]

/-- The inputs of the frames recorded since an earlier state. -/
def recordedSince (s t : RoomThreads) : List InputRef :=
  (t.room.frameInputRecordVec.drop s.room.frameInputRecordVec.length).flatMap (·.sendMsg)

/-- What `Update` has sent a role since an earlier state, and has yet to send it, are the inputs of
the frames recorded since then. -/
structure Follows (roleId : RoleId) (s t : RoomThreads) : Prop where
  grows : s.room.frameInputRecordVec.length ≤ t.room.frameInputRecordVec.length
  sent : t.broadcastsTo roleId ++ t.unsent = s.broadcastsTo roleId ++ s.recordedSince t

theorem follows_refl (roleId : RoleId) (h : s.main = .outside) : Follows roleId s s := by
  refine ⟨Nat.le_refl _, ?_⟩
  rw [recordedSince, List.drop_length, unsent, h]
  rfl

/-- A step that neither records nor sends. -/
theorem Follows.of_eq {roleId : RoleId} {u : RoomThreads} (h : Follows roleId s t)
    (hrecord : u.room.frameInputRecordVec = t.room.frameInputRecordVec)
    (hbroadcasts : u.broadcasts = t.broadcasts) (hunsent : u.unsent = t.unsent) : Follows roleId s u := by
  refine ⟨by rw [hrecord]; exact h.grows, ?_⟩
  rw [broadcastsTo, hbroadcasts, hunsent, recordedSince, hrecord]
  exact h.sent

/-- The pushes for a role that is in a list once. -/
theorem filter_map_of_count_one {roleIds : List RoleId} {roleId : RoleId}
    (h : roleIds.count roleId = 1) (input : InputRef) :
    ((roleIds.map (·, input)).filter (·.1 = roleId)).map (·.2) = [input] := by
  have hfilter : (roleIds.map (·, input)).filter (·.1 = roleId) =
      (roleIds.filter (· = roleId)).map (·, input) := by
    rw [List.filter_map]
    rfl
  have hone : roleIds.filter (· = roleId) = [roleId] := by
    have := List.filter_eq (l := roleIds) roleId
    rw [h] at this
    simpa using this
  rw [hfilter, hone]
  rfl

theorem follows_main {roleId : RoleId} (h : Follows roleId s t) (hin : t.room.roleIds.count roleId = 1) :
    Follows roleId s t.stepMain := by
  -- all but a record and a round's end leave the three lists as they are
  cases hpc : t.main with
  | outside => apply h.of_eq <;> simp [stepMain, hpc, unsent, GameServerExample.nextFrame]
  | swap => apply h.of_eq <;> simp [stepMain, hpc, unsent, GameServerExample.swapInputs]
  | record =>
    have hsent := h.sent
    simp only [unsent, hpc, List.append_nil] at hsent
    simp only [stepMain, hpc]
    refine ⟨?_, ?_⟩
    · show _ ≤ (t.room.frameInputRecordVec ++ [_]).length
      rw [List.length_append]
      exact Nat.le_add_right_of_le h.grows
    · show t.broadcastsTo roleId ++ t.room.sendMsg = s.broadcastsTo roleId ++
        ((t.room.frameInputRecordVec ++ [(⟨t.room.frameCounter, t.room.sendMsg⟩ : FrameInput)]).drop
          s.room.frameInputRecordVec.length).flatMap (·.sendMsg)
      rw [List.drop_append_of_le_length h.grows, List.flatMap_append, List.flatMap_singleton,
        ← List.append_assoc, hsent]
      rfl
  | loop todo =>
    cases todo with
    | nil => apply h.of_eq <;> simp [stepMain, hpc, unsent, GameServerExample.clearSendMsg]
    | cons input todo => apply h.of_eq <;> simp [stepMain, hpc, unsent, GameServerExample.stamp]
  | send input todo =>
    have hsent := h.sent
    simp only [unsent, hpc] at hsent
    simp only [stepMain, hpc, broadcast, GameServerExample.broadcast,
      GameServerExample.sendMessageByRoleIds_eq]
    refine ⟨h.grows, ?_⟩
    show ((t.broadcasts ++ t.room.roleIds.map (·, input)).filter _).map _ ++ todo = _
    rw [List.filter_append, List.map_append, filter_map_of_count_one hin, List.append_assoc]
    exact hsent

theorem follows_step {roleId : RoleId} {u : RoomThreads} {e : RoomEvent} (h : Follows roleId s t)
    (hin : InRoomOnce roleId t e) (hu : step t e = .ok u) : Follows roleId s u := by
  obtain ⟨msg, rfl, rfl⟩ | ⟨rfl, rfl⟩ | ⟨-, -, hsame⟩ := step_cases hu
  · exact h.of_eq rfl rfl rfl
  · exact follows_main h (hin rfl)
  · exact h.of_eq hsame.record hsame.broadcasts hsame.unsent

/-- **What `Update` sends a role that is in the room once** are the inputs of the frames it
records, in the order of the record. -/
theorem broadcasts_run {roleId : RoleId} (hs : s.main = .outside) (ht : t.main = .outside)
    (hin : EachStep step (InRoomOnce roleId) s events) (hrun : run step s events = .ok t) :
    t.broadcastsTo roleId = s.broadcastsTo roleId ++ s.recordedSince t := by
  have hfollows : Follows roleId s t :=
    run_invariant (fun _ _ _ h hin hu => follows_step h hin hu) (follows_refl roleId hs) hin hrun
  have hsent := hfollows.sent
  rw [unsent, ht, List.append_nil] at hsent
  exact hsent

/-- What `Update` has sent is part of what the send dispatcher has been given. -/
def Broadcast (s : RoomThreads) : Prop :=
  (s.broadcasts.map fun b => (b.1, Outgoing.control b.2)).Sublist s.room.sent

theorem broadcast_step {e : RoomEvent} (h : s.Broadcast) (ht : step s e = .ok t) : t.Broadcast := by
  unfold Broadcast at h ⊢
  cases e with
  | control msg => cases ht; exact h
  | enterRoom roleId msg now =>
    cases ht
    rw [GameServerExample.enterRoom_eq]
    exact h.trans (List.sublist_append_left _ _)
  | onRoleDisconnect roleId => cases ht; exact h
  | main =>
    cases ht
    unfold stepMain
    split <;> try exact h
    -- the push itself
    simp only [broadcast, GameServerExample.broadcast, GameServerExample.sendMessageByRoleIds_eq,
      List.map_append, List.map_map]
    exact h.append (List.Sublist.refl _)
  | join msg now =>
    cases ht
    unfold stepJoin
    split <;> try exact h
    · exact h.trans (List.sublist_append_left _ _)
    · rw [GameServerExample.rePlay_eq]
      exact h.trans (List.sublist_append_left _ _)
    · exact h.trans (List.sublist_append_left _ _)

theorem broadcast_run (h : s.Broadcast) (hrun : run step s events = .ok t) : t.Broadcast :=
  run_invariant (G := fun _ _ => True) (fun _ _ _ h _ ht => broadcast_step h ht) h
    (fun _ _ _ _ _ => trivial) hrun

end Run

/-- Two roles enter, and an input is collected. -/
def opening : List RoomEvent :=
  [.enterRoom 2 .new 0, .enterRoom 7 .new 0, .control .new]

/-- Two calls of `Update`, with an input that comes while the first frame is sent. -/
def twoFrames : List RoomEvent :=
  [.main, .main, .main, .main, .control .new, .main, .main,
   .main, .main, .main, .main, .main, .main]

end RoomThreads

end GameNetwork
