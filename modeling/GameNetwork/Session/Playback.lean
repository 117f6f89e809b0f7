import GameNetwork.Session.Faults

/-!
# What the players play

Of what the room has recorded, `done` is what it has given out and will not
write to again (`Sends`); `sends_step` says what an event adds to it. A player
that is in the room once is given all of it from where it entered (`Hears`),
role 3 from the beginning. `Mail.Follows.played_isPrefix` puts this together with
what the mail service delivers: the inputs of a player's game are the record,
frame by frame, but for what was recorded before the player entered.
-/

namespace GameNetwork

open Lib

def Outgoing.input? : Outgoing → Option InputRef
  | .control input => some input
  | _ => none

/-- The inputs that a role has been sent, in order. -/
def inputsTo (roleId : RoleId) (sent : List (RoleId × Outgoing)) : List InputRef :=
  (sentTo roleId sent).filterMap Outgoing.input?

theorem inputsTo_append (roleId : RoleId) (sent sent' : List (RoleId × Outgoing)) :
    inputsTo roleId (sent ++ sent') = inputsTo roleId sent ++ inputsTo roleId sent' := by
  rw [inputsTo, sentTo_append, List.filterMap_append]
  rfl

namespace RoomThreads

/-- What is given out of the record. -/
structure Sends (s : RoomThreads) (done : List InputRef) : Prop extends Lockstep s where
  recorded : s.room.recorded = done ++ s.unsent
  sent : ∀ x ∈ s.room.sent, ∀ i ∈ x.2.input?, i ∈ done
  absent : ∀ r, r ∉ s.room.roleIds → inputsTo r s.room.sent = []

/-- What an event adds to it. -/
structure Adds (s t : RoomThreads) (done new : List InputRef) : Prop where
  sends : t.Sends (done ++ new)
  /-- Nothing that has been given out is written to. -/
  stays : ∀ i ∈ done, t.room.inputs[i]? = s.room.inputs[i]?
  hears : ∀ r ∈ s.room.roleIds, t.room.roleIds.count r = 1 →
    inputsTo r t.room.sent = inputsTo r s.room.sent ++ new
  enters : ∀ r, r ∉ s.room.roleIds → r ∈ t.room.roleIds →
    s.main = .outside ∧ new = [] ∧ inputsTo r t.room.sent = if r = 3 then done else []
  stay : s.room.roleIds <+: t.room.roleIds

section Step

variable {s t : RoomThreads} {e : RoomEvent} {done : List InputRef}

theorem sends_new : new.Sends [] :=
  ⟨lockstep_new, rfl, nofun, fun _ _ => rfl⟩

theorem Sends.nodup (h : s.Sends done) : (done ++ s.unsent).Nodup := by
  rw [← h.recorded]
  exact (List.nodup_append.mp h.toInputsInOrder.nodup).1

theorem Sends.lt (h : s.Sends done) {i : InputRef} (hi : i ∈ done) : i < s.room.inputs.length :=
  h.toInputsInOrder.lt (by rw [h.recorded]; exact List.mem_append_left _ hi)

/-- Nothing is sent. -/
theorem Sends.silent (h : s.Sends done) (hlockstep : t.Lockstep) (hrecorded : t.room.recorded = done ++ t.unsent)
    (hsent : t.room.sent = s.room.sent) (hroles : t.room.roleIds = s.room.roleIds)
    (hinputs : ∀ i ∈ done, t.room.inputs[i]? = s.room.inputs[i]?) : Adds s t done [] := by
  refine ⟨?_, hinputs, fun r _ _ => ?_, fun r hr hr' => absurd (hroles ▸ hr') hr,
    hroles ▸ List.prefix_refl _⟩
  · rw [List.append_nil]
    exact ⟨hlockstep, hrecorded, by rw [hsent]; exact h.sent, by rw [hsent, hroles]; exact h.absent⟩
  · rw [hsent, List.append_nil]

/-- What `RePlay` gives a role. -/
theorem inputsTo_replay (r roleId : RoleId) (inputs : List InputRef) :
    inputsTo r (inputs.map fun input => (roleId, Outgoing.control input)) =
      if roleId = r then inputs else [] := by
  induction inputs with
  | nil => split <;> rfl
  | cons input inputs ih =>
    rw [List.map_cons, ← List.singleton_append, inputsTo_append, ih]
    by_cases heq : roleId = r <;> simp [inputsTo, sentTo, heq, Outgoing.input?]

/-- The inputs that `EnterRoom` gives out: the record, to role 3. -/
theorem inputsTo_enterRoomSends (r : RoleId) (room : GameServerExample) (roleId : RoleId)
    (msg : EnterRoomMessage) (now : BitVec 64) :
    inputsTo r (room.enterRoomSends roleId msg now) =
      if roleId = r ∧ r = 3 then room.recorded else [] := by
  have hnone : ∀ {sent : List (RoleId × Outgoing)}, (∀ x ∈ sent, x.2.input? = none) → inputsTo r sent = [] := by
    intro sent hsent
    refine List.filterMap_eq_nil_iff.mpr fun msg hmsg => ?_
    obtain ⟨x, hx, rfl⟩ := List.mem_map.mp hmsg
    exact hsent x (List.mem_of_mem_filter hx)
  have htwo : inputsTo r (if roleId = 2 then (room.roleIds ++ [roleId]).map
      (·, GameServerExample.gameStartAt now) else []) = [] := by
    refine hnone fun x hx => ?_
    split at hx
    · obtain ⟨r', -, rfl⟩ := List.mem_map.mp hx
      rfl
    · cases hx
  have hanswer : inputsTo r [(roleId, Outgoing.enterRoom { msg with result := 0 })] = [] := by
    refine hnone fun x hx => ?_
    rw [List.mem_singleton.mp hx]
    rfl
  have hthree : inputsTo r (if roleId = 3 then (roleId, GameServerExample.gameStartAt now) ::
      room.recorded.map fun input => (roleId, Outgoing.control input) else []) =
      if roleId = r ∧ r = 3 then room.recorded else [] := by
    split
    · next hroleId =>
      have hstart : inputsTo r [(roleId, GameServerExample.gameStartAt now)] = [] :=
        hnone fun x hx => by rw [List.mem_singleton.mp hx]; rfl
      rw [← List.singleton_append, inputsTo_append, inputsTo_replay, hstart, List.nil_append]
      by_cases heq : roleId = r
      · rw [if_pos heq, if_pos ⟨heq, heq ▸ hroleId⟩]
      · rw [if_neg heq, if_neg fun h => heq h.1]
    · next hroleId =>
      rw [if_neg fun h => hroleId (h.1.trans h.2)]
      rfl
  unfold GameServerExample.enterRoomSends
  rw [inputsTo_append, inputsTo_append, htwo, hthree, hanswer, List.append_nil]
  rfl

/-- **A role enters**, between two calls of `Update`. -/
theorem sends_enterRoom (h : s.Sends done) (hout : s.main = .outside) (roleId : RoleId) (msg : EnterRoomMessage)
    (now : BitVec 64) : Adds s { s with room := s.room.enterRoom roleId msg now } done [] := by
  have hunsent : s.unsent = [] := by
    rw [unsent, hout]
  have hdone : s.room.recorded = done := by
    rw [h.recorded, hunsent, List.append_nil]
  have hlockstep := lockstep_step h.toLockstep (e := .enterRoom roleId msg now) hout rfl
  rw [GameServerExample.enterRoom_eq] at hlockstep ⊢
  have hinputs : ∀ r, inputsTo r (s.room.sent ++ s.room.enterRoomSends roleId msg now) =
      inputsTo r s.room.sent ++ if roleId = r ∧ r = 3 then done else [] := by
    intro r
    rw [inputsTo_append, inputsTo_enterRoomSends, hdone]
  refine ⟨?_, fun _ _ => rfl, fun r hr hone => ?_, fun r hr hr' => ⟨hout, rfl, ?_⟩, List.prefix_append _ _⟩
  · rw [List.append_nil]
    refine ⟨hlockstep, h.recorded, fun x hx i hi => ?_, fun r hr => ?_⟩
    · have hx' : x ∈ s.room.sent ++ s.room.enterRoomSends roleId msg now := hx
      rcases List.mem_append.mp hx' with hx | hx
      · exact h.sent x hx i hi
      · have hmem : i ∈ inputsTo x.1 (s.room.enterRoomSends roleId msg now) :=
          List.mem_filterMap.mpr ⟨x.2, List.mem_map.mpr ⟨x, by simpa using hx, rfl⟩, hi⟩
        rw [inputsTo_enterRoomSends] at hmem
        split at hmem
        · exact hdone ▸ hmem
        · cases hmem
    · have hr' : r ∉ s.room.roleIds ++ [roleId] := hr
      rw [List.mem_append, not_or, List.mem_singleton] at hr'
      show inputsTo r (s.room.sent ++ s.room.enterRoomSends roleId msg now) = []
      rw [hinputs, h.absent r hr'.1, if_neg fun heq => hr'.2 heq.1.symm]
      rfl
  · -- another role
    have hne : roleId ≠ r := fun heq => by
      have hcount : (s.room.roleIds ++ [roleId]).count r = 1 := hone
      rw [List.count_append, heq, List.count_singleton_self] at hcount
      have hpos := List.count_pos_iff.mpr hr
      omega
    show inputsTo r (s.room.sent ++ s.room.enterRoomSends roleId msg now) = _
    rw [hinputs, if_neg fun heq => hne heq.1]
  · have hmem : r ∈ s.room.roleIds ++ [roleId] := hr'
    obtain rfl : r = roleId := List.mem_singleton.mp ((List.mem_append.mp hmem).resolve_left hr)
    show inputsTo r (s.room.sent ++ s.room.enterRoomSends r msg now) = _
    rw [hinputs, h.absent r hr, List.nil_append]
    by_cases h3 : r = 3
    · rw [if_pos ⟨rfl, h3⟩, if_pos h3]
    · rw [if_neg fun heq => h3 heq.2, if_neg h3]

/-- The pushes for a role. -/
theorem inputsTo_broadcast (r : RoleId) (roleIds : List RoleId) (input : InputRef) :
    inputsTo r (roleIds.map (·, Outgoing.control input)) = List.replicate (roleIds.count r) input := by
  induction roleIds with
  | nil => rfl
  | cons roleId roleIds ih =>
    rw [List.map_cons, ← List.singleton_append, inputsTo_append, ih, List.count_cons]
    by_cases heq : roleId = r
    · simp [inputsTo, sentTo, heq, Outgoing.input?, List.replicate_succ]
    · simp [inputsTo, sentTo, heq]

/-- **A statement of `Update`.** -/
theorem sends_main (h : s.Sends done) : ∃ new, Adds s s.stepMain done new := by
  have hlockstep := lockstep_main h.toLockstep
  have hrecorded := h.recorded
  cases hpc : s.main with
  | outside =>
    simp only [unsent, hpc] at hrecorded
    simp only [stepMain, hpc] at hlockstep ⊢
    exact ⟨[], h.silent hlockstep hrecorded rfl rfl fun _ _ => rfl⟩
  | swap =>
    simp only [unsent, hpc] at hrecorded
    simp only [stepMain, hpc] at hlockstep ⊢
    exact ⟨[], h.silent hlockstep hrecorded rfl rfl fun _ _ => rfl⟩
  | record =>
    simp only [unsent, hpc, List.append_nil] at hrecorded
    simp only [stepMain, hpc] at hlockstep ⊢
    refine ⟨[], h.silent hlockstep ?_ rfl rfl fun _ _ => rfl⟩
    show s.room.recordFrame.recorded = done ++ s.room.sendMsg
    rw [GameServerExample.recorded_recordFrame, hrecorded]
  | loop todo =>
    simp only [unsent, hpc] at hrecorded
    cases todo with
    | nil =>
      simp only [stepMain, hpc] at hlockstep ⊢
      exact ⟨[], h.silent hlockstep hrecorded rfl rfl fun _ _ => rfl⟩
    | cons input todo =>
      have hnodup := h.nodup
      simp only [unsent, hpc] at hnodup
      simp only [stepMain, hpc] at hlockstep ⊢
      refine ⟨[], h.silent hlockstep hrecorded rfl rfl fun i hi => ?_⟩
      -- the input that is stamped has not been given out
      have hne : input ≠ i := fun heq =>
        (List.nodup_append.mp hnodup).2.2 i hi input List.mem_cons_self heq.symm
      show (s.room.inputs.modify input _)[i]? = _
      rw [List.getElem?_modify]
      simp [hne]
  | send input todo =>
    simp only [unsent, hpc] at hrecorded
    simp only [stepMain, hpc, broadcast, GameServerExample.broadcast,
      GameServerExample.sendMessageByRoleIds_eq] at hlockstep ⊢
    refine ⟨[input], ⟨hlockstep, ?_, fun x hx i hi => ?_, fun r hr => ?_⟩, fun _ _ => rfl, fun r hr hone => ?_,
      fun r hr hr' => absurd hr' hr, List.prefix_refl _⟩
    · show s.room.recorded = done ++ [input] ++ todo
      rw [hrecorded, List.append_assoc]
      rfl
    · rcases List.mem_append.mp hx with hx | hx
      · exact List.mem_append_left _ (h.sent x hx i hi)
      · obtain ⟨r, -, rfl⟩ := List.mem_map.mp hx
        cases hi
        exact List.mem_append_right _ List.mem_cons_self
    · rw [inputsTo_append, h.absent r hr, inputsTo_broadcast, List.count_eq_zero.mpr hr]
      rfl
    · have hcount : s.room.roleIds.count r = 1 := hone
      rw [inputsTo_append, inputsTo_broadcast, hcount]
      rfl

/-- **What an event gives out.** -/
theorem sends_step {reaches : RoleId → Prop} (h : s.Sends done) (he : e.Served reaches) (hb : s.BetweenUpdates e)
    (ht : step s e = .ok t) : ∃ new, Adds s t done new := by
  cases e with
  | control msg =>
    have hlockstep := lockstep_step h.toLockstep hb ht
    cases ht
    refine ⟨[], h.silent hlockstep h.recorded rfl rfl fun i hi => ?_⟩
    exact List.getElem?_append_left (h.lt hi)
  | enterRoom roleId msg now =>
    cases ht
    exact ⟨[], sends_enterRoom h hb roleId msg now⟩
  | main =>
    cases ht
    exact sends_main h
  | onRoleDisconnect roleId => exact he.elim
  | join msg now => exact he.elim

end Step

end RoomThreads

/-! ## The record as it is played -/

/-- The inputs of these objects, as a game plays them. -/
def inputsOf (inputs : List ControlMessage) (refs : List InputRef) : List Input :=
  refs.filterMap fun i => inputs[i]?.map (·.input)

/-- The record: the inputs of each frame, with its number. -/
def FrameInput.playback (inputs : List ControlMessage) (frame : FrameInput) : List Input :=
  (frame.sendMsg.filterMap (inputs[·]?)).map fun m => ⟨m.roleId, frame.frameNumber, m.moveDirection⟩

def GameServerExample.playback (s : GameServerExample) : List Input :=
  s.frameInputRecordVec.flatMap (·.playback s.inputs)

section Playback

variable {inputs : List ControlMessage}

theorem inputsOf_append (refs refs' : List InputRef) :
    inputsOf inputs (refs ++ refs') = inputsOf inputs refs ++ inputsOf inputs refs' := List.filterMap_append

theorem inputsOf_isPrefix {refs refs' : List InputRef} (h : refs <+: refs') :
    inputsOf inputs refs <+: inputsOf inputs refs' := by
  obtain ⟨l, rfl⟩ := h
  rw [inputsOf_append]
  exact List.prefix_append _ _

/-- Inputs that have the number of their frame as their tick. -/
theorem inputsOf_frame {refs : List InputRef} {frameNumber : BitVec 32}
    (h : ∀ i ∈ refs, inputs[i]?.map (·.tick) = some frameNumber) :
    inputsOf inputs refs = FrameInput.playback inputs ⟨frameNumber, refs⟩ := by
  unfold inputsOf FrameInput.playback
  rw [List.map_filterMap]
  refine List.filterMap_congr fun i hi => ?_
  obtain ⟨m, hm, htick⟩ := Option.map_eq_some_iff.mp (h i hi)
  rw [hm, ← htick]
  rfl

/-- What is stamped is the beginning of the playback. -/
theorem inputsOf_isPrefix_playback {frames : List FrameInput} {done rest : List InputRef}
    (hsplit : frames.flatMap (·.sendMsg) = done ++ rest)
    (hticks : ∀ frame ∈ frames, ∀ i ∈ frame.sendMsg, i ∈ done →
      inputs[i]?.map (·.tick) = some frame.frameNumber) :
    inputsOf inputs done <+: frames.flatMap (·.playback inputs) := by
  induction frames generalizing done with
  | nil =>
    rw [List.nil_eq_append_iff.mp hsplit |>.1]
    exact List.prefix_refl _
  | cons frame frames ih =>
    rw [List.flatMap_cons] at hsplit ⊢
    rcases List.append_eq_append_iff.mp hsplit with ⟨l, rfl, htail⟩ | ⟨l, hframe, -⟩
    · -- the whole frame, and some of what follows
      rw [inputsOf_append, inputsOf_frame fun i hi =>
        hticks frame List.mem_cons_self i hi (List.mem_append_left _ hi)]
      refine (List.prefix_append_right_inj _).mpr (ih htail fun frame' hf i hi hl => ?_)
      exact hticks frame' (List.mem_cons_of_mem _ hf) i hi (List.mem_append_right _ hl)
    · -- some of the frame
      rw [inputsOf_frame fun i hi =>
        hticks frame List.mem_cons_self i (hframe ▸ List.mem_append_left _ hi) hi]
      refine List.IsPrefix.trans ?_ (List.prefix_append _ _)
      unfold FrameInput.playback
      rw [hframe, List.filterMap_append, List.map_append]
      exact List.prefix_append _ _

theorem RoomThreads.Sends.prefix_playback {s : RoomThreads} {done : List InputRef} (h : s.Sends done) :
    inputsOf s.room.inputs done <+: s.room.playback := by
  refine inputsOf_isPrefix_playback h.recorded fun frame hf i hi hdone => ?_
  refine (h.ticks frame hf i hi).resolve_left fun hunstamped => ?_
  have hunsent : i ∈ s.unsent := by
    unfold RoomThreads.unstamped at hunstamped
    unfold RoomThreads.unsent
    split at hunstamped
    · exact hunstamped
    · exact List.mem_cons_of_mem _ hunstamped
    · cases hunstamped
  exact (List.nodup_append.mp h.nodup).2.2 i hdone i hunsent rfl

/-- The whole record, once there is nothing left to send. -/
theorem RoomThreads.Sends.playback_eq {s : RoomThreads} {done : List InputRef} (h : s.Sends done)
    (hout : s.main = .outside) : inputsOf s.room.inputs done = s.room.playback := by
  have hunsent : s.unsent = [] := by rw [RoomThreads.unsent, hout]
  have hunstamped : s.unstamped = [] := by rw [RoomThreads.unstamped, hout]
  have hdone : s.room.recorded = done := by rw [h.recorded, hunsent, List.append_nil]
  rw [← hdone, inputsOf, GameServerExample.recorded, List.filterMap_flatMap]
  refine List.flatMap_congr fun frame hf => ?_
  refine inputsOf_frame fun i hi => (h.ticks frame hf i hi).resolve_left fun hmem => ?_
  rw [hunstamped] at hmem
  cases hmem

theorem filterMap_range_getElem? (inputs : List ControlMessage) :
    (List.range inputs.length).filterMap (inputs[·]?) = inputs := by
  induction inputs using List.reverseRecOn with
  | nil => rfl
  | append_singleton inputs m ih =>
    rw [List.length_append, List.length_singleton, List.range_succ, List.filterMap_append]
    refine congrArg₂ (· ++ ·) (Eq.trans (List.filterMap_congr fun i hi => ?_) ih) ?_
    · exact List.getElem?_append_left (List.mem_range.mp hi)
    · simp

/-- The objects that are recorded are the first. -/
theorem RoomThreads.InputsInOrder.recorded_isPrefix {s : RoomThreads} (h : s.InputsInOrder) :
    s.room.recorded.filterMap (s.room.inputs[·]?) <+: s.room.inputs := by
  have hprefix := List.IsPrefix.filterMap (s.room.inputs[·]?)
    (List.prefix_append s.room.recorded (s.unrecorded ++ s.room.controlMsg))
  rwa [h.order, filterMap_range_getElem?] at hprefix

/-- The moves of a player in a list of inputs, in order. -/
def movesOf (roleId : RoleId) (inputs : List Input) : List MoveDirection :=
  (inputs.filter (·.playerId = roleId)).map (·.direction)

theorem movesOf_append (roleId : RoleId) (inputs inputs' : List Input) :
    movesOf roleId (inputs ++ inputs') = movesOf roleId inputs ++ movesOf roleId inputs' := by
  rw [movesOf, List.filter_append, List.map_append]
  rfl

theorem movesOf_isPrefix (roleId : RoleId) {inputs inputs' : List Input} (h : inputs <+: inputs') :
    movesOf roleId inputs <+: movesOf roleId inputs' := List.IsPrefix.map _ (List.IsPrefix.filter _ h)

theorem movesOf_playback (roleId : RoleId) (s : GameServerExample) :
    movesOf roleId s.playback =
      ((s.recorded.filterMap (s.inputs[·]?)).filter (·.roleId = roleId)).map (·.moveDirection) := by
  unfold GameServerExample.playback GameServerExample.recorded
  induction s.frameInputRecordVec with
  | nil => rfl
  | cons frame frames ih =>
    rw [List.flatMap_cons, List.flatMap_cons, movesOf_append, ih, List.filterMap_append, List.filter_append,
      List.map_append]
    congr 1
    unfold movesOf FrameInput.playback
    rw [List.filter_map, List.map_map]
    rfl

theorem map_inputsFrom (roleId : RoleId) (s : GameServerExample) :
    (inputsFrom roleId s).map (·.moveDirection) =
      (s.inputs.filter (·.roleId = roleId)).map (·.moveDirection) := by
  rw [inputsFrom, List.filter_map, List.map_map]
  rfl

/-- **The moves of a player in the record** are the first that the room has collected from it. -/
theorem movesOf_playback_isPrefix {s : RoomThreads} (h : s.InputsInOrder) (roleId : RoleId) :
    movesOf roleId s.room.playback <+: (inputsFrom roleId s.room).map (·.moveDirection) := by
  rw [movesOf_playback, map_inputsFrom]
  exact List.IsPrefix.map _ (List.IsPrefix.filter _ h.recorded_isPrefix)

/-- Once all that was collected is recorded, they are all of them. -/
theorem movesOf_playback_eq {s : RoomThreads} (h : s.InputsInOrder) (hout : s.main = .outside)
    (hempty : s.room.controlMsg = []) (roleId : RoleId) :
    movesOf roleId s.room.playback = (inputsFrom roleId s.room).map (·.moveDirection) := by
  have hunrecorded : s.unrecorded = [] := by rw [RoomThreads.unrecorded, hout]
  have hrecorded : s.room.recorded = List.range s.room.inputs.length := by
    rw [← h.order, hunrecorded, hempty, List.append_nil, List.append_nil]
  rw [movesOf_playback, map_inputsFrom, hrecorded, filterMap_range_getElem?]

end Playback

namespace Mail

/-! ## What a game has -/

/-- **A game has a beginning of what its player has been given**; the rest is what the player is being
sent. -/
theorem Known.played {s : Mail} (h : s.Known) (hsame : s.Inv id) {r : RoleId} {client : MailClient}
    (hr : s.clients r = some client) :
    client.app.played ++ ((client.down.filterMap Message.control?).map (·.input) ++
      inputsOf s.room.room.inputs (((s.out r).filterMap Post.room?).filterMap Outgoing.input?)) =
        inputsOf s.room.room.inputs (inputsTo r s.room.room.sent) := by
  have hsent := (hsame.clients r client hr).got_sent Message.control? Message.control?
    (fun msg => msg.input?.bind (s.room.room.inputs[·]?)) (fun _ => rfl) (fun _ => rfl) fun msg => by
      cases msg with
      | control input =>
        simp only [Post.message]
        split
        · next hm => exact hm.symm
        · next hm => exact hm.symm
      | gameStart m => rfl
      | enterRoom m => rfl
  have hinputs : ∀ msgs : List Outgoing, inputsOf s.room.room.inputs (msgs.filterMap Outgoing.input?) =
      (msgs.filterMap fun msg => msg.input?.bind (s.room.room.inputs[·]?)).map (·.input) := by
    intro msgs
    rw [inputsOf, List.filterMap_filterMap, List.map_filterMap]
    refine List.filterMap_congr fun msg _ => ?_
    rw [Option.map_bind]
    rfl
  rw [inputsTo, hinputs, hinputs, ← hsent, MailClient.got, List.filterMap_append, List.map_append,
    List.map_append, (h.told r client hr).played, List.append_assoc]
  rfl

/-! ## Runs -/

/-- The players know the game, and what they have been sent is as it was sent. -/
structure Playing (s : Mail) (done : List InputRef) : Prop extends Known s where
  same : s.Inv id
  sends : s.room.Sends done

section Runs

variable {s t : Mail} {e : MailEvent} {done : List InputRef} {r : RoleId}

theorem playing_new : Playing new [] := ⟨known_new, inv_new id, RoomThreads.sends_new⟩

/-- What has been given out and is not written to stays the same. -/
theorem sameSent_of_stays {new : List InputRef} (h : s.room.Sends done)
    (hadds : RoomThreads.Adds s.room t.room done new) : SameSent id s.room.room t.room.room := by
  intro x hx
  have hmem := h.sent x hx
  cases hmsg : x.2 with
  | gameStart m => rfl
  | enterRoom m => rfl
  | control input =>
    rw [hmsg] at hmem
    unfold Post.message
    simp only [hadds.stays input (hmem input rfl)]

theorem playing_step (h : s.Playing done) (hb : s.BetweenUpdates e) (ht : s.step e = .ok t) :
    ∃ new, t.Playing (done ++ new) ∧ RoomThreads.Adds s.room t.room done new := by
  obtain ⟨new, hadds⟩ : ∃ new, RoomThreads.Adds s.room t.room done new := by
    rcases room_step h.toInv ht with hroom | ⟨e', he', hstep, hbetween⟩
    · rw [hroom]
      exact ⟨[], h.sends.silent h.sends.toLockstep h.sends.recorded rfl rfl fun _ _ => rfl⟩
    · exact RoomThreads.sends_step h.sends he' (hbetween hb) hstep
  exact ⟨new, ⟨h.toKnown.step ht, inv_step h.same ht (sameSent_of_stays h.sends hadds), hadds.sends⟩, hadds⟩

/-- A player that is in the room once has been given all but `missed`. -/
structure Hears (s : Mail) (done : List InputRef) (r : RoleId) (missed : List InputRef) : Prop where
  prefix_done : missed <+: done
  given : s.room.room.roleIds.count r = 1 → missed ++ inputsTo r s.room.room.sent = done

/-- Who is in the room goes on to hear. -/
theorem Hears.step {missed new : List InputRef} (h : s.Hears done r missed)
    (hadds : RoomThreads.Adds s.room t.room done new) (hr : r ∈ s.room.room.roleIds) :
    t.Hears (done ++ new) r missed := by
  refine ⟨h.prefix_done.trans (List.prefix_append _ _), fun hone => ?_⟩
  have hpos := List.count_pos_iff.mpr hr
  have hcount := hadds.stay.sublist.count_le r
  rw [hadds.hears r hr hone, ← List.append_assoc, h.given (by omega)]

/-- A player is in the room, and has been given the record but for `missed`. -/
def Follows (s : Mail) (r : RoleId) (missed : List Input) : Prop :=
  ∃ done refs, s.Playing done ∧ r ∈ s.room.room.roleIds ∧ s.Hears done r refs ∧
    inputsOf s.room.room.inputs refs = missed

/-- **Who enters** misses what is recorded, and role 3 nothing. -/
theorem Playing.enters (h : s.Playing done) (hb : s.BetweenUpdates e) (ht : s.step e = .ok t)
    (hr : r ∉ s.room.room.roleIds) (hr' : r ∈ t.room.room.roleIds) :
    t.Follows r (if r = 3 then [] else s.room.room.playback) := by
  obtain ⟨new, hplaying, hadds⟩ := playing_step h hb ht
  obtain ⟨hout, rfl, hinputs⟩ := hadds.enters r hr hr'
  rw [List.append_nil] at hplaying
  by_cases h3 : r = 3
  · refine ⟨done, [], hplaying, hr', ⟨List.nil_prefix, fun _ => ?_⟩, by rw [if_pos h3]; rfl⟩
    rw [hinputs, if_pos h3]
    rfl
  · refine ⟨done, done, hplaying, hr', ⟨List.prefix_refl _, fun _ => ?_⟩, ?_⟩
    · rw [hinputs, if_neg h3, List.append_nil]
    · -- all that is recorded has been given out, and is not written to
      rw [if_neg h3, ← h.sends.playback_eq hout]
      exact List.filterMap_congr fun i hi => by rw [hadds.stays i hi]

/-- Who is in the room stays there, and misses nothing more. -/
theorem Follows.step {missed : List Input} (h : s.Follows r missed) (hb : s.BetweenUpdates e)
    (ht : s.step e = .ok t) : t.Follows r missed := by
  obtain ⟨done, refs, hplaying, hr, hhears, hinputs⟩ := h
  obtain ⟨new, hplaying', hadds⟩ := playing_step hplaying hb ht
  refine ⟨done ++ new, refs, hplaying', hadds.stay.subset hr, hhears.step hadds hr, ?_⟩
  rw [← hinputs]
  refine List.filterMap_congr fun i hi => ?_
  rw [hadds.stays i (hhears.prefix_done.subset hi)]

theorem Follows.run {missed : List Input} {events : List MailEvent} (h : s.Follows r missed)
    (hb : EachStep Mail.step BetweenUpdates s events) (ht : run Mail.step s events = .ok t) : t.Follows r missed :=
  run_invariant (I := fun s => s.Follows r missed) (fun _ _ _ h hb ht => h.step hb ht) h hb ht

theorem Playing.run {events : List MailEvent} (h : s.Playing done)
    (hb : EachStep Mail.step BetweenUpdates s events) (ht : run Mail.step s events = .ok t) :
    ∃ done, t.Playing done :=
  run_invariant (I := fun s => ∃ done, s.Playing done) (fun _ _ _ ⟨_, h⟩ hb ht => by
    obtain ⟨new, h', -⟩ := playing_step h hb ht
    exact ⟨_, h'⟩) ⟨done, h⟩ hb ht

/-- What is missed has been recorded. -/
theorem Follows.missed_isPrefix {missed : List Input} (h : s.Follows r missed) : missed <+: s.room.room.playback := by
  obtain ⟨done, refs, hplaying, -, hhears, rfl⟩ := h
  exact (inputsOf_isPrefix hhears.prefix_done).trans hplaying.sends.prefix_playback

/-- **What a game has**, and what its player missed before it was in the room, is the beginning of
the record. -/
theorem Follows.played_isPrefix {missed : List Input} (h : s.Follows r missed)
    (hone : s.room.room.roleIds.count r = 1) {client : MailClient} (hr : s.clients r = some client) :
    missed ++ client.app.played <+: s.room.room.playback := by
  obtain ⟨done, refs, hplaying, -, hhears, rfl⟩ := h
  refine List.IsPrefix.trans ?_ hplaying.sends.prefix_playback
  rw [← hhears.given hone, inputsOf_append]
  refine (List.prefix_append_right_inj _).mpr ?_
  rw [← hplaying.toKnown.played hplaying.same hr]
  exact List.prefix_append _ _

/-- A player without mail has the whole record, between two calls of `Update`. -/
theorem Follows.all_played {missed : List Input} (h : s.Follows r missed)
    (hone : s.room.room.roleIds.count r = 1) {app : ClientApp} {up : List Message}
    (hr : s.clients r = some ⟨app, up, []⟩) (hout : s.out r = []) (hmain : s.room.main = .outside) :
    missed ++ app.played = s.room.room.playback := by
  obtain ⟨done, refs, hplaying, -, hhears, rfl⟩ := h
  have hplayed := hplaying.toKnown.played hplaying.same hr
  rw [hout] at hplayed
  rw [← hplaying.sends.playback_eq hmain, ← hhears.given hone, inputsOf_append, ← hplayed]
  exact congrArg _ (List.append_nil _).symm

/-- **The moves of a player in the record** are the first that it has made. -/
theorem Playing.moves_isPrefix (h : s.Playing done) {client : MailClient} (hr : s.clients r = some client) :
    movesOf r s.room.room.playback <+: (client.app.sent.filterMap Message.control?).map (·.moveDirection) := by
  refine (movesOf_playback_isPrefix h.sends.toInputsInOrder r).trans ?_
  have hinputs := congrArg (List.map (·.moveDirection)) (h.clients r client hr).inputs
  rw [List.map_append, List.map_map, List.map_map] at hinputs
  exact ⟨_, hinputs⟩

/-- Once they have all been collected and recorded, they are all. -/
theorem Playing.all_moves (h : s.Playing done) (hout : s.room.main = .outside)
    (hempty : s.room.room.controlMsg = []) {app : ClientApp} {down : List Message}
    (hr : s.clients r = some ⟨app, [], down⟩) :
    movesOf r s.room.room.playback = (app.sent.filterMap Message.control?).map (·.moveDirection) := by
  rw [movesOf_playback_eq h.sends.toInputsInOrder hout hempty]
  have hinputs := congrArg (List.map (·.moveDirection)) (h.clients r _ hr).inputs
  rw [List.map_append, List.map_map, List.map_map] at hinputs
  exact (List.append_nil _).symm.trans hinputs

end Runs

end Mail

end GameNetwork
