import GameNetwork.GameClient.GameController
import GameNetwork.GameServer.Lockstep

/-!
# The order of frames

Whole calls of `Control`, `EnterRoom`, `OnRoleDisconnect` and `Update`, in any
order. `FramesInOrder`: the ticks of the inputs a role is sent do not go back,
and so its client plays them back in time. `frames_in_order_iff` says when:
`Update` must not send inputs under a number below what a role in the room has
been sent, as it does after role 2 has set the counter back, and role 3 must
not be replayed a record that goes back or that starts before what it has been
sent.
-/

namespace GameNetwork

open Lib RoomThreads

namespace GameServerExample

/-- The inputs a list of pushes has for a role. -/
def inputsIn (roleId : RoleId) (sent : List (RoleId × Outgoing)) : List InputRef :=
  sent.filterMap fun
    | (r, .control input) => if r = roleId then some input else none
    | _ => none

/-- The inputs a role has been sent, in order. -/
def inputsTo (s : GameServerExample) (roleId : RoleId) : List InputRef := inputsIn roleId s.sent

/-- The objects that these are. -/
def controlsTo (s : GameServerExample) (roleId : RoleId) : List ControlMessage :=
  (s.inputsTo roleId).filterMap fun input => s.inputs[input]?

/-- The objects of the record. -/
def recordedControls (s : GameServerExample) : List ControlMessage :=
  s.recorded.filterMap fun input => s.inputs[input]?

/-- Ticks do not go back. -/
def TicksSorted (msgs : List ControlMessage) : Prop := msgs.Pairwise fun a b => a.tick ≤ b.tick

/-- **Frame numbers do not go back for a role**, and its client plays the inputs back in time. -/
structure FramesInOrder (s : GameServerExample) : Prop where
  sorted : ∀ roleId, TicksSorted (s.controlsTo roleId)
  playsBack : ∀ roleId, GameController.PlaysBack (s.controlsTo roleId)

/-- The condition on a call and the state it finds. -/
def CounterAhead (s : GameServerExample) : RoomCall → Prop
  | .update => s.controlMsg ≠ [] → ∀ roleId ∈ s.roleIds, ∀ m ∈ s.controlsTo roleId, m.tick ≤ s.frameCounter + 1
  | .enterRoom roleId _ _ => roleId = 3 → TicksSorted s.recordedControls ∧
      ∀ m ∈ s.controlsTo 3, ∀ m' ∈ s.recordedControls, m.tick ≤ m'.tick
  | _ => True

/-! ## The invariant -/

/-- The room between two calls of `Update`, as the threads see it. -/
def outside (s : GameServerExample) : RoomThreads := ⟨s, .outside, .before, []⟩

structure RoomInv (s : GameServerExample) : Prop where
  lockstep : Lockstep s.outside
  /-- Only recorded inputs have been sent. -/
  sent : ∀ roleId, ∀ input ∈ s.inputsTo roleId, input ∈ s.recorded

section Inv

variable {s t : GameServerExample} {call : RoomCall}

/-- What the threads keep between two calls of `Update` depends on the room alone. -/
theorem lockstep_outside {u : RoomThreads} (hu : u.Lockstep) (hmain : u.main = .outside) :
    Lockstep u.room.outside := by
  have hunrecorded : u.unrecorded = [] := by rw [unrecorded, hmain]
  have hunstamped : u.unstamped = [] := by rw [unstamped, hmain]
  have horder := hu.order
  have hticks := hu.ticks
  rw [hunrecorded] at horder
  rw [hunstamped] at hticks
  exact ⟨⟨horder, fun _ => hu.cleared (.inl hmain)⟩, fun _ _ _ _ hi => (by cases hi), hticks⟩

theorem lockstep_call (h : Lockstep s.outside) (ht : step s call = .ok t) : Lockstep t.outside := by
  cases call with
  | control msg =>
    cases ht
    exact lockstep_step (e := .control msg) h trivial rfl
  | enterRoom roleId msg now =>
    cases ht
    exact lockstep_step (e := .enterRoom roleId msg now) h rfl rfl
  | onRoleDisconnect roleId =>
    cases ht
    exact lockstep_step (e := .onRoleDisconnect roleId) h rfl rfl
  | update =>
    cases ht
    -- the statements of `Update`, one after the other
    obtain ⟨n, u, hrun, hmain, -, hroom⟩ := update_statements (s := s.outside) rfl
    have hb : EachStep RoomThreads.step BetweenUpdates s.outside (List.replicate n .main) := by
      intro ds e hds _ _
      have hmem : e ∈ List.replicate n RoomEvent.main :=
        hds.subset (List.mem_append_right _ (List.mem_singleton_self e))
      rw [(List.mem_replicate.mp hmem).2]
      exact trivial
    have hu := lockstep_outside (lockstep_run h hb hrun) hmain
    rw [hroom] at hu
    exact hu

/-! ### What a call sends -/

theorem inputsIn_append (roleId : RoleId) (sent sent' : List (RoleId × Outgoing)) :
    inputsIn roleId (sent ++ sent') = inputsIn roleId sent ++ inputsIn roleId sent' :=
  List.filterMap_append

theorem inputsIn_replay (r roleId : RoleId) (inputs : List InputRef) :
    inputsIn r (inputs.map fun input => (roleId, Outgoing.control input)) =
      if roleId = r then inputs else [] := by
  induction inputs with
  | nil => split <;> rfl
  | cons input inputs ih =>
    rw [List.map_cons, inputsIn, List.filterMap_cons]
    rw [inputsIn] at ih
    split <;> rename_i h <;> simp_all

/-- A broadcast of some inputs: each as often as the role is in the room. -/
theorem mem_inputsIn_broadcast {r : RoleId} {roleIds : List RoleId} {inputs : List InputRef}
    {input : InputRef} :
    input ∈ inputsIn r (inputs.flatMap fun input => roleIds.map (·, Outgoing.control input)) ↔
      input ∈ inputs ∧ r ∈ roleIds := by
  simp only [inputsIn, List.mem_filterMap, List.mem_flatMap, List.mem_map]
  constructor
  · rintro ⟨p, ⟨i, hi, q, hq, rfl⟩, hp⟩
    simp only [Option.ite_none_right_eq_some, Option.some.injEq] at hp
    obtain ⟨rfl, rfl⟩ := hp
    exact ⟨hi, hq⟩
  · rintro ⟨hi, hr⟩
    exact ⟨_, ⟨input, hi, r, hr, rfl⟩, by simp⟩

/-- `EnterRoom` sends inputs to role 3 when it enters, and those are the recorded ones. -/
theorem inputsIn_enterRoomSends (roleId : RoleId) (msg : EnterRoomMessage) (now : BitVec 64) (r : RoleId) :
    inputsIn r (s.enterRoomSends roleId msg now) = if roleId = 3 ∧ r = 3 then s.recorded else [] := by
  have hanswer : inputsIn r [(roleId, Outgoing.enterRoom { msg with result := 0 })] = [] := rfl
  have hstart : ∀ roleIds : List RoleId, inputsIn r (roleIds.map (·, gameStartAt now)) = [] := fun roleIds =>
    List.filterMap_eq_nil_iff.mpr fun p hp => by
      obtain ⟨_, -, rfl⟩ := List.mem_map.mp hp
      rfl
  have htwo : inputsIn r (if roleId = 2 then (s.roleIds ++ [roleId]).map (·, gameStartAt now) else []) = [] := by
    split
    · exact hstart _
    · rfl
  rw [enterRoomSends, inputsIn_append, inputsIn_append, hanswer, htwo, List.append_nil, List.nil_append]
  by_cases h3 : roleId = 3
  · subst h3
    have hcons : ((3 : RoleId), gameStartAt now) ::
          s.recorded.map (fun input => ((3 : RoleId), Outgoing.control input)) =
        [(3 : RoleId)].map (·, gameStartAt now) ++
          s.recorded.map fun input => ((3 : RoleId), Outgoing.control input) := rfl
    rw [if_pos rfl, hcons, inputsIn_append, hstart, inputsIn_replay]
    exact if_congr ⟨fun h => ⟨rfl, h.symm⟩, fun h => h.2.symm⟩ rfl rfl
  · rw [if_neg h3, if_neg fun h => h3 h.1]
    rfl

theorem stamped_getElem?_of_notMem {input : InputRef} {refs : List InputRef} (h : input ∉ refs)
    (inputs : List ControlMessage) (tick : BitVec 32) :
    (stamped inputs tick refs)[input]? = inputs[input]? := by
  induction refs generalizing inputs with
  | nil => rfl
  | cons ref refs ih =>
    have hne := List.ne_of_not_mem_cons h
    have hmem := List.not_mem_of_not_mem_cons h
    rw [stamped, List.foldl_cons]
    refine (ih hmem _).trans ?_
    simp [Ne.symm hne]

/-- Objects that stay as they are. -/
theorem filterMap_getElem?_congr {inputs inputs' : List ControlMessage} {refs : List InputRef}
    (h : ∀ input ∈ refs, inputs'[input]? = inputs[input]?) :
    (refs.filterMap fun input => inputs'[input]?) = refs.filterMap fun input => inputs[input]? :=
  List.filterMap_congr h

theorem RoomInv.sent_lt (h : s.RoomInv) {roleId : RoleId} {input : InputRef}
    (hi : input ∈ s.inputsTo roleId) : input < s.inputs.length :=
  h.lockstep.lt (h.sent roleId input hi)

/-- `Control` sends nothing. -/
theorem controlsTo_control (h : s.RoomInv) (msg : ControlMessage) (r : RoleId) :
    (s.control msg).controlsTo r = s.controlsTo r :=
  filterMap_getElem?_congr fun _ hi => List.getElem?_append_left (h.sent_lt hi)

theorem controlsTo_enterRoom (roleId : RoleId) (msg : EnterRoomMessage) (now : BitVec 64) (r : RoleId) :
    (s.enterRoom roleId msg now).controlsTo r =
      s.controlsTo r ++ if roleId = 3 ∧ r = 3 then s.recordedControls else [] := by
  rw [enterRoom_eq, controlsTo, inputsTo]
  simp only [inputsIn_append, inputsIn_enterRoomSends, List.filterMap_append]
  rw [apply_ite (List.filterMap _)]
  rfl

/-- **`Update` sends everyone in the room the collected inputs, under the next frame number.** -/
theorem controlsTo_update (h : s.RoomInv) (r : RoleId) :
    ∃ added, s.update.controlsTo r = s.controlsTo r ++ added ∧ (∀ m ∈ added, m.tick = s.frameCounter + 1) ∧
      (added = [] ↔ s.controlMsg = [] ∨ r ∉ s.roleIds) := by
  have hupdate : step s .update = .ok s.update := rfl
  have hlock : Lockstep s.update.outside := lockstep_call h.lockstep hupdate
  have hticks : ∀ input ∈ s.controlMsg,
      s.update.inputs[input]?.map (·.tick) = some (s.frameCounter + 1) := by
    intro input hi
    have hframe : (⟨s.frameCounter + 1, s.controlMsg⟩ : FrameInput) ∈ s.update.frameInputRecordVec := by
      rw [update_eq]
      exact List.mem_append_right _ (List.mem_singleton_self _)
    rcases hlock.ticks _ hframe input hi with hu | ht
    · cases hu
    · exact ht
  have hold : ∀ input ∈ s.inputsTo r, s.update.inputs[input]? = s.inputs[input]? := by
    intro input hi
    rw [update_eq]
    refine stamped_getElem?_of_notMem (fun hc => ?_) _ _
    exact (List.nodup_append.mp h.lockstep.nodup).2.2 input (h.sent r input hi) input
      (List.mem_append_right _ hc) rfl
  have hsent : s.update.inputsTo r = s.inputsTo r ++
      inputsIn r (s.controlMsg.flatMap fun input => s.roleIds.map (·, .control input)) := by
    rw [inputsTo, update_eq]
    exact inputsIn_append ..
  refine ⟨(inputsIn r (s.controlMsg.flatMap fun input => s.roleIds.map (·, .control input))).filterMap
    fun input => s.update.inputs[input]?, ?_, ?_, ?_⟩
  · rw [controlsTo, hsent, List.filterMap_append, filterMap_getElem?_congr hold]
    rfl
  · intro m hm
    obtain ⟨input, hi, hm⟩ := List.mem_filterMap.mp hm
    have htick := hticks input (mem_inputsIn_broadcast.mp hi).1
    rw [hm] at htick
    exact Option.some.inj htick
  · rw [List.filterMap_eq_nil_iff]
    constructor
    · intro hnone
      by_contra hcon
      obtain ⟨hne, hr⟩ := not_or.mp hcon
      obtain ⟨input, hi⟩ := List.exists_mem_of_ne_nil _ hne
      have htick := hticks input hi
      rw [hnone input (mem_inputsIn_broadcast.mpr ⟨hi, not_not.mp hr⟩)] at htick
      cases htick
    · intro hnone input hi
      obtain ⟨hi, hr⟩ := mem_inputsIn_broadcast.mp hi
      rcases hnone with hnil | hnot
      · rw [hnil] at hi
        cases hi
      · exact absurd hr hnot

theorem roomInv_new : RoomInv new := ⟨lockstep_new, fun _ _ h => (by cases h)⟩

theorem roomInv_step (h : s.RoomInv) (ht : step s call = .ok t) : t.RoomInv := by
  refine ⟨lockstep_call h.lockstep ht, fun roleId input hi => ?_⟩
  cases call with
  | control msg => cases ht; exact h.sent roleId input hi
  | onRoleDisconnect r => cases ht; exact h.sent roleId input hi
  | enterRoom r msg now =>
    cases ht
    rw [enterRoom_eq, inputsTo, inputsIn_append, inputsIn_enterRoomSends] at hi
    have hrecorded : (s.enterRoom r msg now).recorded = s.recorded := by rw [enterRoom_eq]; rfl
    rw [hrecorded]
    rcases List.mem_append.mp hi with hi | hi
    · exact h.sent roleId input hi
    · split at hi
      · exact hi
      · cases hi
  | update =>
    cases ht
    have hrecorded : s.update.recorded = s.recorded ++ s.controlMsg := by
      rw [update_eq, recorded, List.flatMap_append, List.flatMap_singleton]
      rfl
    rw [update_eq, inputsTo, inputsIn_append] at hi
    rw [hrecorded]
    rcases List.mem_append.mp hi with hi | hi
    · exact List.mem_append_left _ (h.sent roleId input hi)
    · exact List.mem_append_right _ (mem_inputsIn_broadcast.mp hi).1

/-! ## The order -/

theorem framesInOrder_iff : s.FramesInOrder ↔ ∀ roleId, TicksSorted (s.controlsTo roleId) :=
  ⟨fun h => h.sorted, fun h => ⟨h, fun roleId => GameController.playsBack_of_sorted (h roleId)⟩⟩

/-- Messages that all have the same tick can follow when none before them has a later one. -/
theorem ticksSorted_append_const {msgs added : List ControlMessage} {tick : BitVec 32}
    (h : TicksSorted msgs) (hadded : ∀ m ∈ added, m.tick = tick) :
    TicksSorted (msgs ++ added) ↔ (added ≠ [] → ∀ m ∈ msgs, m.tick ≤ tick) := by
  rw [TicksSorted, List.pairwise_append]
  constructor
  · rintro ⟨-, -, hle⟩ hne m hm
    obtain ⟨m', hm'⟩ := List.exists_mem_of_ne_nil _ hne
    rw [← hadded m' hm']
    exact hle m hm m' hm'
  · refine fun hle => ⟨h, List.pairwise_of_forall_mem_list fun a ha b hb => ?_, fun a ha b hb => ?_⟩
    · rw [hadded a ha, hadded b hb]
      exact BitVec.le_refl tick
    · rw [hadded b hb]
      exact hle (List.ne_nil_of_mem hb) a ha

/-- An entry keeps the order unless it replays a record that goes back, or that starts too low. -/
theorem ticksSorted_enterRoom_iff (hs : ∀ roleId, TicksSorted (s.controlsTo roleId)) {r : RoleId}
    {msg : EnterRoomMessage} {now : BitVec 64} :
    (∀ roleId, TicksSorted ((s.enterRoom r msg now).controlsTo roleId)) ↔
      s.CounterAhead (.enterRoom r msg now) := by
  rw [CounterAhead]
  simp only [controlsTo_enterRoom]
  by_cases h3 : r = 3
  · simp only [h3, true_and, true_imp_iff]
    refine ⟨fun hall => ?_, fun hrecord roleId => ?_⟩
    · have h3 := hall 3
      rw [if_pos rfl, TicksSorted, List.pairwise_append] at h3
      exact h3.2
    · split
      · next hr =>
        subst hr
        rw [TicksSorted, List.pairwise_append]
        exact ⟨hs 3, hrecord⟩
      · rw [List.append_nil]
        exact hs roleId
  · refine iff_of_true (fun roleId => ?_) fun h => absurd h h3
    rw [if_neg fun hc => h3 hc.1, List.append_nil]
    exact hs roleId

/-- `Update` keeps the order unless it sends somebody a number below one sent before. -/
theorem ticksSorted_update_iff (h : s.RoomInv) (hs : ∀ roleId, TicksSorted (s.controlsTo roleId)) :
    (∀ roleId, TicksSorted (s.update.controlsTo roleId)) ↔ s.CounterAhead .update := by
  have hone : ∀ roleId, TicksSorted (s.update.controlsTo roleId) ↔
      (s.controlMsg ≠ [] → roleId ∈ s.roleIds →
        ∀ m ∈ s.controlsTo roleId, m.tick ≤ s.frameCounter + 1) := by
    intro roleId
    obtain ⟨added, heq, htick, hempty⟩ := controlsTo_update h roleId
    have hadded : added ≠ [] ↔ s.controlMsg ≠ [] ∧ roleId ∈ s.roleIds := by
      rw [Ne, hempty, not_or, not_not]
    rw [heq, ticksSorted_append_const (hs roleId) htick, hadded]
    exact and_imp
  rw [CounterAhead]
  simp only [hone]
  exact ⟨fun hall hne roleId hr => hall roleId hne hr, fun hall roleId hne hr => hall hne roleId hr⟩

/-- One call keeps the order exactly under the condition. -/
theorem framesInOrder_step (h : s.RoomInv) (hs : s.FramesInOrder) :
    (∀ t, step s call = .ok t → t.FramesInOrder) ↔ s.CounterAhead call := by
  have hone : ∀ t, step s call = .ok t →
      ((∀ t, step s call = .ok t → t.FramesInOrder) ↔ ∀ roleId, TicksSorted (t.controlsTo roleId)) := by
    intro t ht
    rw [← framesInOrder_iff]
    exact forall_step_iff ht
  cases call with
  | control msg =>
    rw [hone _ rfl]
    refine iff_of_true (fun roleId => ?_) trivial
    rw [controlsTo_control h]
    exact hs.sorted roleId
  | onRoleDisconnect r =>
    rw [hone _ rfl]
    exact iff_of_true hs.sorted trivial
  | enterRoom r msg now =>
    rw [hone _ rfl]
    exact ticksSorted_enterRoom_iff hs.sorted
  | update =>
    rw [hone _ rfl]
    exact ticksSorted_update_iff h hs.sorted

end Inv

/-- **Frame numbers never go back in a run if and only if every call meets the condition.** -/
theorem frames_in_order_iff (calls : List RoomCall) :
    Always step FramesInOrder new calls ↔ EachStep step CounterAhead new calls :=
  always_iff_eachStep (I := RoomInv) (G := fun _ _ => True)
    (fun _ _ _ h _ _ _ ht => roomInv_step h ht) (fun _ _ h hs _ => framesInOrder_step h hs)
    roomInv_new (framesInOrder_iff.mpr fun _ => List.Pairwise.nil) (fun _ _ _ _ _ => trivial)

/-- Role 2 enters after a frame has been sent. -/
def lateTwo : List RoomCall :=
  [.enterRoom 7 .new 0, .control .new, .update, .enterRoom 2 .new 0, .control .new, .update]

/-- The client of role 7 queues what it is sent, and comes to frame 1. -/
def playLateTwo (msgs : List ControlMessage) : List ControllerEvent := msgs.map (.control 7 ·)

theorem frames_go_back :
    (∃ t, run step new lateTwo = .ok t ∧ (t.controlsTo 7).map (·.tick) = [2, 1] ∧
      ∃ u, run GameController.step .new (playLateTwo (t.controlsTo 7) ++ [.popInput 1]) = .ok u ∧
        u.inputDeque.map (·.logicFrame) = [2, 1]) ∧
    ¬ Always step FramesInOrder new lateTwo := by
  refine ⟨⟨_, rfl, by decide, _, rfl, by decide⟩, fun h => ?_⟩
  have hsorted := (h lateTwo (List.prefix_refl _) _ rfl).sorted 7
  exact absurd hsorted (by unfold TicksSorted; decide)

end GameServerExample

end GameNetwork
