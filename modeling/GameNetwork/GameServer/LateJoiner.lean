import Mathlib.Data.List.Count
import GameNetwork.GameServer.RoomThreads

/-!
# The late joiner

Role 3 enters once, phase by phase, while the main thread goes on with
`Update`. An input reaches it by the replay when its frame has been recorded
before `RePlay`, and by `Update` when it is sent after the role is in
`role_ids`: nothing is missed, but both may happen. `Undisturbed` says when
neither of the two orders that send an input twice is taken, and
`late_joiner_iff` that role 3 gets every recorded input exactly once if and
only if all steps are undisturbed.
-/

namespace GameNetwork

open Lib

/-- The next statement sends an input. -/
def UpdatePc.Sending : UpdatePc → Prop
  | .send _ _ => True
  | _ => False

instance : ∀ pc : UpdatePc, Decidable pc.Sending
  | .send _ _ => .isTrue trivial
  | .outside | .swap | .record | .loop _ => .isFalse id

namespace RoomThreads

/-- Role 3 enters by the phases alone, and stays. -/
def JoinsOnce (_ : RoomThreads) : RoomEvent → Prop
  | .enterRoom roleId _ _ | .onRoleDisconnect roleId => roleId ≠ 3
  | _ => True

instance (s : RoomThreads) : ∀ e, Decidable (s.JoinsOnce e)
  | .enterRoom .. | .onRoleDisconnect _ => inferInstanceAs (Decidable (_ ≠ _))
  | .control _ | .main | .join .. => .isTrue trivial

/-- No input is sent between the phase that adds role 3 and its `RePlay`, and `RePlay` finds no
recorded input that is still to be sent. -/
def Undisturbed (s : RoomThreads) : RoomEvent → Prop
  | .main => s.join = .added ∨ s.join = .started → ¬ s.main.Sending
  | .join _ _ => s.join = .started → s.unsent = []
  | _ => True

instance (s : RoomThreads) : ∀ e, Decidable (s.Undisturbed e)
  | .main | .join .. => inferInstanceAs (Decidable (_ → _))
  | .control _ | .enterRoom .. | .onRoleDisconnect _ => .isTrue trivial

/-- How often role 3 has been sent an input. -/
def timesSent (s : RoomThreads) (input : InputRef) : Nat := s.room.sent.count (3, .control input)

/-- **Role 3 has been sent every recorded input exactly once.** -/
def ExactlyOnce (s : RoomThreads) : Prop := ∀ input ∈ s.room.recorded, s.timesSent input = 1

/-- The replay is over. -/
def Joined (s : RoomThreads) : Prop := s.join = .replayed ∨ s.join = .done

instance (s : RoomThreads) : Decidable s.Joined := inferInstanceAs (Decidable (_ ∨ _))

/-- What every step keeps. -/
structure JoinInv (s : RoomThreads) : Prop extends InputsInOrder s where
  sending : s.unsent.Nodup
  recorded : ∀ input ∈ s.unsent, input ∈ s.room.recorded
  member : s.room.roleIds.count 3 = if s.join = .before then 0 else 1

/-- What the steps keep while they are undisturbed. -/
def OnTrack (s : RoomThreads) : Prop :=
  ∀ input, s.timesSent input = if input ∈ s.room.recorded ∧ s.Joined ∧ input ∉ s.unsent then 1 else 0

/-- An input has been sent twice, or is going to be. -/
def SentTwice (s : RoomThreads) : Prop :=
  ∃ input ∈ s.room.recorded, 2 ≤ s.timesSent input ∨
    (1 ≤ s.timesSent input ∧ (s.join = .added ∨ s.join = .started)) ∨
    (1 ≤ s.timesSent input ∧ input ∈ s.unsent ∧ s.join ≠ .before)

/-! ## One step -/

section Step

variable {s t : RoomThreads} {e : RoomEvent}

/-- A broadcast reaches role 3 as often as it is in the room. -/
theorem count_broadcast (roleIds : List RoleId) (input q : InputRef) :
    (roleIds.map (·, Outgoing.control input)).count (3, .control q) =
      if q = input then roleIds.count 3 else 0 := by
  split
  · next h =>
    subst h
    exact List.count_map_of_injective roleIds (·, Outgoing.control q) (fun _ _ h => (Prod.mk.inj h).1) 3
  · next h =>
    refine List.count_eq_zero.mpr fun hm => ?_
    obtain ⟨_, -, heq⟩ := List.mem_map.mp hm
    exact h (Outgoing.control.inj (Prod.mk.inj heq).2).symm

/-- A replay reaches it with every recorded input. -/
theorem count_replay (inputs : List InputRef) (q : InputRef) :
    (inputs.map fun input => ((3 : RoleId), Outgoing.control input)).count (3, .control q) =
      inputs.count q :=
  List.count_map_of_injective inputs (fun input => ((3 : RoleId), Outgoing.control input))
    (fun _ _ h => Outgoing.control.inj (Prod.mk.inj h).2) q

/-- `EnterRoom` of another role sends role 3 no input. -/
theorem count_enterRoomSends (room : GameServerExample) {roleId : RoleId} (h : roleId ≠ 3)
    (msg : EnterRoomMessage) (now : BitVec 64) (q : InputRef) :
    (room.enterRoomSends roleId msg now).count (3, .control q) = 0 := by
  refine List.count_eq_zero.mpr fun hm => ?_
  rw [GameServerExample.enterRoomSends, if_neg h, List.append_nil] at hm
  rcases List.mem_append.mp hm with hm | hm
  · split at hm
    · obtain ⟨_, -, heq⟩ := List.mem_map.mp hm
      cases (Prod.mk.inj heq).2
    · cases hm
  · cases (Prod.mk.inj (List.mem_singleton.mp hm)).2

/-- A step that sends role 3 no input. -/
structure Quiet (s t : RoomThreads) : Prop where
  sent : ∀ q, t.timesSent q = s.timesSent q
  pending : (t.room.recorded = s.room.recorded ∧ t.unsent = s.unsent) ∨
    (s.unsent = [] ∧ t.unsent = s.unrecorded ∧ t.room.recorded = s.room.recorded ++ s.unrecorded)
  joined : t.Joined ↔ s.Joined
  entering : s.join = .added ∨ s.join = .started → t.join = .added ∨ t.join = .started
  left : s.join ≠ .before → t.join ≠ .before

theorem quiet_of_join {s t : RoomThreads} (hjoin : t.join = s.join)
    (hsent : ∀ q, t.timesSent q = s.timesSent q)
    (hpending : (t.room.recorded = s.room.recorded ∧ t.unsent = s.unsent) ∨
      (s.unsent = [] ∧ t.unsent = s.unrecorded ∧
        t.room.recorded = s.room.recorded ++ s.unrecorded)) : Quiet s t :=
  ⟨hsent, hpending, by rw [Joined, Joined, hjoin], by rw [hjoin]; exact id, by rw [hjoin]; exact id⟩

/-- A statement of `Update` that sends nothing. -/
theorem quiet_main (h : ¬ s.main.Sending) : Quiet s s.stepMain := by
  cases hpc : s.main with
  | send input todo =>
    rw [hpc] at h
    exact absurd trivial h
  | record =>
    refine quiet_of_join ?_ (fun q => ?_) (.inr ⟨?_, ?_, ?_⟩) <;>
      simp only [stepMain, hpc, unsent, unrecorded, timesSent,
        GameServerExample.recorded_recordFrame]
    rfl
  | outside =>
    refine quiet_of_join ?_ (fun q => ?_) (.inl ⟨?_, ?_⟩) <;> simp only [stepMain, hpc, unsent] <;> rfl
  | swap =>
    refine quiet_of_join ?_ (fun q => ?_) (.inl ⟨?_, ?_⟩) <;> simp only [stepMain, hpc, unsent] <;> rfl
  | loop todo =>
    cases todo <;> refine quiet_of_join ?_ (fun q => ?_) (.inl ⟨?_, ?_⟩) <;>
      simp only [stepMain, hpc, unsent] <;> rfl

/-- A phase of `EnterRoom` other than `RePlay`. -/
theorem quiet_stepJoin (h : s.join ≠ .started) (msg : EnterRoomMessage) (now : BitVec 64) :
    Quiet s (s.stepJoin msg now) := by
  cases hpc : s.join with
  | started => exact absurd hpc h
  | before =>
    refine ⟨fun q => ?_, .inl ⟨?_, ?_⟩, ?_, ?_, ?_⟩ <;>
      simp [stepJoin, hpc, Joined, unsent, timesSent, GameServerExample.addRole,
        GameServerExample.recorded]
  | added =>
    refine ⟨fun q => ?_, .inl ⟨?_, ?_⟩, ?_, ?_, ?_⟩ <;>
      simp [stepJoin, hpc, Joined, unsent, timesSent, GameServerExample.sendMessageByRoleId,
        GameServerExample.gameStartAt, GameServerExample.recorded]
  | replayed =>
    refine ⟨fun q => ?_, .inl ⟨?_, ?_⟩, ?_, ?_, ?_⟩ <;>
      simp [stepJoin, hpc, Joined, unsent, timesSent, GameServerExample.sendMessageByRoleId,
        GameServerExample.answer, GameServerExample.recorded]
  | done =>
    have hsame : s.stepJoin msg now = s := by simp only [stepJoin, hpc]
    rw [hsame]
    exact quiet_of_join rfl (fun _ => rfl) (.inl ⟨rfl, rfl⟩)

/-- **What a step sends role 3**: `Update` one input, `RePlay` all the recorded ones, any other step
none. -/
theorem join_cases (hg : s.JoinsOnce e) (ht : step s e = .ok t) :
    (∃ input todo, e = .main ∧ s.main = .send input todo ∧ t.unsent = todo ∧ t.join = s.join ∧
      t.room.recorded = s.room.recorded ∧
      ∀ q, t.timesSent q = s.timesSent q + if q = input then s.room.roleIds.count 3 else 0) ∨
    (∃ msg now, e = .join msg now ∧ s.join = .started ∧ t.join = .replayed ∧ t.unsent = s.unsent ∧
      t.room.recorded = s.room.recorded ∧
      ∀ q, t.timesSent q = s.timesSent q + s.room.recorded.count q) ∨
    ((e = .main → ¬ s.main.Sending) ∧
      (∀ msg now, e = .join msg now → s.join ≠ .started) ∧ Quiet s t) := by
  cases e with
  | control msg =>
    cases ht
    exact .inr (.inr ⟨fun h => (by cases h), fun _ _ h => (by cases h),
      quiet_of_join rfl (fun _ => rfl) (.inl ⟨rfl, rfl⟩)⟩)
  | enterRoom roleId msg now =>
    cases ht
    refine .inr (.inr ⟨fun h => (by cases h), fun _ _ h => (by cases h), ?_⟩)
    rw [GameServerExample.enterRoom_eq]
    refine quiet_of_join rfl (fun q => ?_) (.inl ⟨rfl, rfl⟩)
    show (s.room.sent ++ _).count _ = s.room.sent.count _
    rw [List.count_append, count_enterRoomSends _ hg, Nat.add_zero]
  | onRoleDisconnect roleId =>
    cases ht
    exact .inr (.inr ⟨fun h => (by cases h), fun _ _ h => (by cases h),
      quiet_of_join rfl (fun _ => rfl) (.inl ⟨rfl, rfl⟩)⟩)
  | main =>
    cases ht
    by_cases hsending : s.main.Sending
    swap
    · exact .inr (.inr ⟨fun _ => hsending, fun _ _ h => (by cases h), quiet_main hsending⟩)
    obtain ⟨input, todo, hpc⟩ : ∃ input todo, s.main = .send input todo := by
      cases hpc : s.main with
      | send input todo => exact ⟨input, todo, rfl⟩
      | _ => rw [hpc] at hsending; exact hsending.elim
    refine .inl ⟨input, todo, rfl, hpc, ?_, ?_, ?_, fun q => ?_⟩ <;>
      simp only [stepMain, hpc, broadcast, GameServerExample.broadcast,
        GameServerExample.sendMessageByRoleIds_eq, unsent, timesSent, List.count_append,
        count_broadcast]
    rfl
  | join msg now =>
    cases ht
    by_cases hpc : s.join = .started
    · refine .inr (.inl ⟨msg, now, rfl, hpc, ?_, ?_, ?_, fun q => ?_⟩) <;>
        simp only [stepJoin, hpc, GameServerExample.rePlay_eq, timesSent, List.count_append,
          count_replay] <;>
        rfl
    · exact .inr (.inr ⟨fun h => (by cases h), fun _ _ _ => hpc, quiet_stepJoin hpc msg now⟩)

theorem joinInv_new : JoinInv new :=
  ⟨inputsInOrder_new, List.nodup_nil, fun _ h => (by cases h), rfl⟩

/-- Role 3 is in the room once its first phase is over. -/
theorem member_step (h : s.room.roleIds.count 3 = if s.join = .before then 0 else 1)
    (hg : s.JoinsOnce e) (ht : step s e = .ok t) :
    t.room.roleIds.count 3 = if t.join = .before then 0 else 1 := by
  cases e with
  | control msg => cases ht; exact h
  | enterRoom roleId msg now =>
    cases ht
    rw [GameServerExample.enterRoom_eq]
    show (s.room.roleIds ++ [roleId]).count 3 = _
    have hne : roleId ≠ 3 := hg
    rw [List.count_append, List.count_singleton, if_neg fun heq => hne (eq_of_beq heq), Nat.add_zero]
    exact h
  | onRoleDisconnect roleId =>
    cases ht
    show (s.room.roleIds.erase roleId).count 3 = _
    rw [List.count_erase_of_ne (Ne.symm hg)]
    exact h
  | main =>
    cases ht
    have hframe : s.stepMain.room.roleIds = s.room.roleIds ∧ s.stepMain.join = s.join := by
      unfold stepMain
      split <;> simp [broadcast, GameServerExample.broadcast, GameServerExample.nextFrame,
        GameServerExample.swapInputs, GameServerExample.recordFrame, GameServerExample.clearSendMsg,
        GameServerExample.stamp]
    rw [hframe.1, hframe.2]
    exact h
  | join msg now =>
    cases ht
    by_cases hpc : s.join = .before
    · rw [if_pos hpc] at h
      have hadd : (s.stepJoin msg now).room.roleIds = s.room.roleIds ++ [3] ∧
          (s.stepJoin msg now).join = .added := by
        simp only [stepJoin, hpc, GameServerExample.addRole, and_self]
      rw [hadd.1, hadd.2, List.count_append, h]
      rfl
    · rw [if_neg hpc] at h
      have hframe : (s.stepJoin msg now).room.roleIds = s.room.roleIds ∧
          (s.stepJoin msg now).join ≠ .before := by
        unfold stepJoin
        split <;> simp_all [GameServerExample.rePlay_eq, GameServerExample.answer,
          GameServerExample.sendMessageByRoleId]
      rw [hframe.1, if_neg hframe.2]
      exact h

theorem joinInv_step (h : s.JoinInv) (hg : s.JoinsOnce e) (ht : step s e = .ok t) : t.JoinInv := by
  have horder := inputsInOrder_step h.toInputsInOrder ht
  have hmember := member_step h.member hg ht
  rcases join_cases hg ht with ⟨input, todo, -, hpc, hunsent, -, hrecorded, -⟩ |
    ⟨_, _, -, -, -, hunsent, hrecorded, -⟩ | ⟨-, -, hquiet⟩
  · have hsending := h.sending
    have hold := h.recorded
    simp only [unsent, hpc] at hsending hold
    refine ⟨horder, ?_, fun i hi => ?_, hmember⟩
    · rw [hunsent]
      exact (List.nodup_cons.mp hsending).2
    · rw [hunsent] at hi
      rw [hrecorded]
      exact hold i (List.mem_cons_of_mem _ hi)
  · refine ⟨horder, ?_, ?_, hmember⟩
    · rw [hunsent]
      exact h.sending
    · rw [hunsent, hrecorded]
      exact h.recorded
  · rcases hquiet.pending with ⟨hrecorded, hunsent⟩ | ⟨-, hunsent, hrecorded⟩
    · refine ⟨horder, ?_, ?_, hmember⟩
      · rw [hunsent]
        exact h.sending
      · rw [hunsent, hrecorded]
        exact h.recorded
    · refine ⟨horder, ?_, fun i hi => ?_, hmember⟩
      · rw [hunsent]
        exact (List.nodup_append.mp (List.nodup_append.mp h.nodup).2.1).1
      · rw [hunsent] at hi
        rw [hrecorded]
        exact List.mem_append_right _ hi

theorem join_phases_cases (s : RoomThreads) :
    s.join = .before ∨ (s.join = .added ∨ s.join = .started) ∨ s.Joined := by
  unfold Joined
  cases s.join <;> simp

theorem not_joined_of_entering (h : s.join = .added ∨ s.join = .started) : ¬ s.Joined := by
  unfold Joined
  rcases h with h | h <;> rw [h] <;> simp

/-- A step that sends nothing keeps what is on track on track. -/
theorem onTrack_quiet (h : s.JoinInv) (hs : s.OnTrack) (hq : Quiet s t) : t.OnTrack := by
  intro q
  rw [hq.sent q, hs q]
  apply if_congr ?_ rfl rfl
  rw [hq.joined]
  rcases hq.pending with ⟨hrecorded, hunsent⟩ | ⟨hempty, hunsent, hrecorded⟩
  · rw [hrecorded, hunsent]
  · rw [hempty, hunsent, hrecorded, List.mem_append]
    have hnew : q ∈ s.unrecorded → q ∉ s.room.recorded := h.not_recorded
    have hnil : q ∉ ([] : List InputRef) := List.not_mem_nil
    tauto

/-- While the steps are undisturbed, role 3 is sent an input either by `RePlay` or by `Update`. -/
theorem onTrack_step (h : s.JoinInv) (hs : s.OnTrack) (hg : s.JoinsOnce e) (hc : s.Undisturbed e)
    (ht : step s e = .ok t) : t.OnTrack := by
  rcases join_cases hg ht with ⟨input, todo, rfl, hpc, hunsent, hjoin, hrecorded, hsent⟩ |
    ⟨msg, now, rfl, hpc, hjoin, hunsent, hrecorded, hsent⟩ | ⟨-, -, hquiet⟩
  · -- the input goes to role 3 when the replay is over, and otherwise role 3 is not there
    have hjoined : t.Joined ↔ s.Joined := by rw [Joined, Joined, hjoin]
    have hmember : s.room.roleIds.count 3 = if s.Joined then 1 else 0 := by
      rw [h.member]
      rcases join_phases_cases s with hj | hj | hj
      · rw [if_pos hj, if_neg (by unfold Joined; rw [hj]; simp)]
      · exact absurd (show s.main.Sending by rw [hpc]; trivial) (hc hj)
      · rw [if_pos hj, if_neg (by rcases hj with hj | hj <;> rw [hj] <;> simp)]
    have hunsent' : s.unsent = input :: todo := by rw [unsent, hpc]
    have hnodup := h.sending
    have hmem := h.recorded input
    rw [hunsent'] at hnodup hmem
    have hfresh := (List.nodup_cons.mp hnodup).1
    intro q
    rw [hsent q, hs q, hmember, hunsent, hrecorded, hunsent',
      if_congr (and_congr_right fun _ => and_congr_left fun _ => hjoined) rfl rfl]
    by_cases hq : q = input
    · subst hq
      simp [hfresh, hmem List.mem_cons_self]
    · simp [hq]
  · have hempty : s.unsent = [] := hc hpc
    have hnot : ¬ s.Joined := not_joined_of_entering (.inr hpc)
    have hjoined : t.Joined := .inl hjoin
    have hnodup : s.room.recorded.Nodup := (List.nodup_append.mp h.nodup).1
    intro q
    rw [hsent q, hs q, hunsent, hempty, hrecorded, hnodup.count]
    simp [hnot, hjoined]
  · exact onTrack_quiet h hs hquiet

/-- A step that is not sends an input twice, in the end. -/
theorem sentTwice_of_disturbed (h : s.JoinInv) (hg : s.JoinsOnce e)
    (hc : ¬ s.Undisturbed e) (ht : step s e = .ok t) : t.SentTwice := by
  rcases join_cases hg ht with ⟨input, todo, rfl, hpc, -, hjoin, hrecorded, hsent⟩ |
    ⟨msg, now, rfl, hpc, hjoin, hunsent, hrecorded, hsent⟩ | ⟨hmain, hstarted, -⟩
  · have hentering : s.join = .added ∨ s.join = .started :=
      Classical.byContradiction fun hj => hc fun hj' => absurd hj' hj
    refine ⟨input, ?_, .inr (.inl ⟨?_, by rwa [hjoin]⟩)⟩
    · rw [hrecorded]
      exact h.recorded input (by rw [unsent, hpc]; exact List.mem_cons_self)
    · have hbefore : s.join ≠ .before := by rcases hentering with hj | hj <;> rw [hj] <;> simp
      rw [hsent input, if_pos rfl, h.member, if_neg hbefore]
      exact Nat.le_add_left 1 _
  · obtain ⟨input, hi⟩ := List.exists_mem_of_ne_nil _ fun hempty => hc fun _ => hempty
    have hmem := h.recorded input hi
    refine ⟨input, by rwa [hrecorded], .inr (.inr ⟨?_, by rwa [hunsent], by rw [hjoin]; simp⟩)⟩
    have hcount := List.count_pos_iff.mpr hmem
    rw [hsent input]
    omega
  · refine absurd ?_ hc
    cases e with
    | main => exact fun _ => hmain rfl
    | join msg now => exact fun hj => absurd hj (hstarted msg now rfl)
    | _ => trivial

/-- And it stays so. -/
theorem sentTwice_step (h : s.JoinInv) (hs : s.SentTwice) (hg : s.JoinsOnce e) (ht : step s e = .ok t) :
    t.SentTwice := by
  obtain ⟨input, hmem, hcases⟩ := hs
  rcases join_cases hg ht with ⟨i, todo, rfl, hpc, hunsent, hjoin, hrecorded, hsent⟩ |
    ⟨msg, now, rfl, hpc, hjoin, hunsent, hrecorded, hsent⟩ | ⟨-, -, hquiet⟩
  · refine ⟨input, by rwa [hrecorded], ?_⟩
    have hle : s.timesSent input ≤ t.timesSent input := by
      rw [hsent input]
      exact Nat.le_add_right _ _
    rcases hcases with h2 | ⟨h1, hj⟩ | ⟨h1, hu, hj⟩
    · exact .inl (Nat.le_trans h2 hle)
    · exact .inr (.inl ⟨Nat.le_trans h1 hle, by rwa [hjoin]⟩)
    · rw [unsent, hpc] at hu
      rcases List.mem_cons.mp hu with rfl | hu
      · refine .inl ?_
        rw [hsent input, if_pos rfl, h.member, if_neg hj]
        omega
      · exact .inr (.inr ⟨Nat.le_trans h1 hle, by rwa [hunsent], by rwa [hjoin]⟩)
  · refine ⟨input, by rwa [hrecorded], .inl ?_⟩
    -- the replay adds one
    have hcount := List.count_pos_iff.mpr hmem
    rw [hsent input]
    rcases hcases with h2 | ⟨h1, -⟩ | ⟨h1, -, -⟩ <;> omega
  · have hmem' : input ∈ t.room.recorded := by
      rcases hquiet.pending with ⟨hrecorded, -⟩ | ⟨-, -, hrecorded⟩ <;> rw [hrecorded]
      · exact hmem
      · exact List.mem_append_left _ hmem
    refine ⟨input, hmem', ?_⟩
    rw [hquiet.sent input]
    rcases hcases with h2 | ⟨h1, hj⟩ | ⟨h1, hu, hj⟩
    · exact .inl h2
    · exact .inr (.inl ⟨h1, hquiet.entering hj⟩)
    · rcases hquiet.pending with ⟨-, hunsent⟩ | ⟨hempty, -, -⟩
      · exact .inr (.inr ⟨h1, by rwa [hunsent], hquiet.left hj⟩)
      · rw [hempty] at hu
        cases hu

end Step

/-- **Role 3 gets every recorded input exactly once if and only if every step is undisturbed.** -/
theorem late_joiner_iff {events : List RoomEvent} {t : RoomThreads}
    (hg : EachStep step JoinsOnce new events) (hrun : run step new events = .ok t)
    (hmain : t.main = .outside) (hjoined : t.Joined) :
    t.ExactlyOnce ↔ EachStep step Undisturbed new events := by
  have honTrack : OnTrack new := fun q => rfl
  have hunsent : t.unsent = [] := by rw [unsent, hmain]
  have hcases : (EachStep step Undisturbed new events ∧ t.OnTrack) ∨
      (¬ EachStep step Undisturbed new events ∧ t.SentTwice) :=
    good_or_doomed (I := JoinInv)
      (fun _ _ _ h hg ht => joinInv_step h hg ht)
      (fun _ _ _ h hs hg hc ht => onTrack_step h hs hg hc ht)
      (fun _ _ _ h _ hg hc ht => sentTwice_of_disturbed h hg hc ht)
      (fun _ _ _ h hs hg ht => sentTwice_step h hs hg ht)
      joinInv_new honTrack hg hrun
  rcases hcases with ⟨heach, ht⟩ | ⟨heach, ht⟩
  · refine iff_of_true (fun input hi => ?_) heach
    rw [ht input, if_pos ⟨hi, hjoined, by rw [hunsent]; exact List.not_mem_nil⟩]
  · refine iff_of_false (fun hexact => ?_) heach
    obtain ⟨input, hi, hcases⟩ := ht
    have hone := hexact input hi
    rcases hcases with h2 | ⟨-, hj⟩ | ⟨-, hu, -⟩
    · omega
    · exact not_joined_of_entering hj hjoined
    · rw [hunsent] at hu
      cases hu

/-- Role 3 enters while a frame is recorded and not sent. -/
def joinBetweenRecordAndPush : List RoomEvent :=
  [.control .new, .main, .main, .main, .join .new 0, .join .new 0, .join .new 0, .join .new 0,
   .main, .main, .main]

theorem late_joiner_duplicate :
    EachStep step JoinsOnce new joinBetweenRecordAndPush ∧
    ∃ t, run step new joinBetweenRecordAndPush = .ok t ∧ t.main = .outside ∧ t.Joined ∧
      0 ∈ t.room.recorded ∧ t.timesSent 0 = 2 ∧ ¬ t.ExactlyOnce := by
  refine ⟨by decide, _, rfl, rfl, by decide, by decide, by decide, fun h => ?_⟩
  exact absurd (h 0 (by decide)) (by decide)

/-- Role 3 enters between two calls of `Update`, each with an input. -/
def joinBetweenUpdates : List RoomEvent :=
  [.control .new, .main, .main, .main, .main, .main, .main, .join .new 0, .join .new 0, .join .new 0,
   .join .new 0, .control .new, .main, .main, .main, .main, .main, .main]

theorem late_joiner_betweenUpdates :
    ∃ t, run step new joinBetweenUpdates = .ok t ∧ t.ExactlyOnce := by
  refine ⟨_, rfl, ?_⟩
  have hg : EachStep step JoinsOnce new joinBetweenUpdates := by decide
  exact (late_joiner_iff hg rfl rfl (by decide)).mpr (by decide)

end RoomThreads

end GameNetwork
