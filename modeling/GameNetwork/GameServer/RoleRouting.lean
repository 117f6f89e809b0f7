import Mathlib.Data.List.Induction
import GameNetwork.GameServer.GameServer

/-!
# The role table

`RoutingExact`: for every role id, `role_id_conn_map_` has the connection that
registered last among the open connections that hold that role id, and nothing
when there is none. `routing_exact_iff` says which events keep this: a
connection that registered under role id 0 must not be the one routed to when
it takes another, a connection must not be closed while another open one is
registered under its role id, and it must be closed by an error that the
receive loop reports.
-/

namespace GameNetwork

open Lib

namespace GameServer

/-- The connection is open and holds the role id. -/
def holdsRole (s : GameServer) (roleId : RoleId) (c : ConnId) : Bool :=
  (s.armedConn c).any (·.game.roleId = roleId)

/-- The connection that registered last among the open ones that hold the role id. -/
def lastRegistered (s : GameServer) (roleId : RoleId) : Option ConnId :=
  (s.registrations.filter (s.holdsRole roleId)).getLast?

/-- **The role table is exact.** -/
def RoutingExact (s : GameServer) : Prop :=
  ∀ roleId, s.roleIdConnMap.lookup roleId = s.lastRegistered roleId

/-- The condition on an event and the state it finds. -/
def KeepsRouting (s : GameServer) : ServerEvent → Prop
  | .accept _ => True
  | .message c roleId => ∀ conn, s.armedConn c = some conn → s.owned c = true ∧
      ¬ (conn.game.roleId = 0 ∧ roleId ≠ 0 ∧ s.roleIdConnMap.lookup 0 = some c)
  | .readError c ec => ∀ conn, s.armedConn c = some conn →
      if ec.Closes then s.owned c = true ∧
        ∀ c' ∈ s.registrations, c' ≠ c → s.holdsRole conn.game.roleId c' = false
      else s.roleIdConnMap.lookup conn.game.roleId ≠ some c

/-- What every event keeps. -/
structure RoutingInv (s : GameServer) : Prop where
  registered : ∀ c ∈ s.registrations, c < s.conns.length
  callback : ∀ conn ∈ s.conns, conn.game.registerFunc = true

/-! ## The last element of a filtered list -/

/-- Taking out one value changes the last element exactly when it is that value. -/
theorem getLast?_filter_ne {α : Type} [DecidableEq α] {p q : α → Bool} {a : α}
    (hq : ∀ x, q x = (p x && decide (x ≠ a))) (xs : List α) :
    (xs.filter q).getLast? = (xs.filter p).getLast? ↔ (xs.filter p).getLast? ≠ some a := by
  induction xs using List.reverseRecOn with
  | nil => simp
  | append_singleton xs x ih =>
    rw [List.filter_append, List.filter_append]
    by_cases hp : p x = true
    · by_cases hx : x = a
      · -- the last element goes, and cannot be left by the rest
        subst hx
        have hqx : q x = false := by simp [hq]
        have hmem : (xs.filter q).getLast? ≠ some x := fun h => by
          have := List.of_mem_filter (List.mem_of_getLast? h)
          rw [hqx] at this; cases this
        rw [List.filter_cons_of_pos hp, List.filter_cons_of_neg (by simp [hqx]), List.filter_nil,
          List.filter_nil, List.append_nil, List.getLast?_concat]
        exact iff_of_false hmem (not_not.mpr rfl)
      · have hqx : q x = true := by simp [hq, hp, hx]
        rw [List.filter_cons_of_pos hp, List.filter_cons_of_pos hqx, List.filter_nil,
          List.filter_nil, List.getLast?_concat, List.getLast?_concat]
        exact iff_of_true rfl fun h => hx (Option.some.inj h)
    · have hqx : ¬ q x = true := by simp [hq, hp]
      rw [List.filter_cons_of_neg hp, List.filter_cons_of_neg hqx, List.filter_nil,
        List.filter_nil, List.append_nil, List.append_nil]
      exact ih

/-! ## The events -/

section Events

variable {s : GameServer} {c : ConnId} {conn : ServerConn}

theorem holdsRole_of_armed (hc : s.armedConn c = some conn) (roleId : RoleId) :
    s.holdsRole roleId c = decide (conn.game.roleId = roleId) := by
  rw [holdsRole, hc]
  rfl

theorem armed_of_holdsRole {r : RoleId} (h : s.holdsRole r c = true) :
    ∃ conn, s.armedConn c = some conn ∧ conn.game.roleId = r := by
  rw [holdsRole] at h
  cases hconn : s.armedConn c with
  | none => rw [hconn] at h; cases h
  | some conn => rw [hconn] at h; exact ⟨conn, rfl, of_decide_eq_true h⟩

theorem holdsRole_onNewClient {r : RoleId} (h : s.holdsRole r c = true) (endpoint : String) :
    (s.onNewClient endpoint).holdsRole r c = true := by
  obtain ⟨conn, hconn, -⟩ := armed_of_holdsRole h
  have hlt := (List.getElem?_eq_some_iff.mp (armedConn_eq_some.mp hconn).1).1
  rw [holdsRole, armedConn_onNewClient, if_neg (Nat.ne_of_lt hlt)]
  exact h

theorem holdsRole_registered (hc : s.armedConn c = some conn) (roleId r : RoleId) (x : ConnId) :
    (s.registered c conn roleId).holdsRole r x =
      if x = c then decide (roleId = r) else s.holdsRole r x := by
  split
  · next h =>
    subst h
    exact holdsRole_of_armed (armedConn_registered hc roleId) r
  · next h =>
    rw [holdsRole, armedConn_set_ne h (s.registered c conn roleId) _ rfl]
    rfl

/-- Once a connection holds a role id no longer, the last to register with it is the same exactly
when that was another one. -/
theorem lastRegistered_eq_iff {t : GameServer} {roleId : RoleId}
    (hregs : t.registrations = s.registrations)
    (hholds : ∀ x, t.holdsRole roleId x = (s.holdsRole roleId x && decide (x ≠ c))) :
    t.lastRegistered roleId = s.lastRegistered roleId ↔ s.lastRegistered roleId ≠ some c := by
  rw [lastRegistered, lastRegistered, hregs]
  exact getLast?_filter_ne hholds _

theorem lastRegistered_holds {roleId : RoleId} (h : s.lastRegistered roleId = some c) :
    s.holdsRole roleId c = true := List.of_mem_filter (List.mem_of_getLast? h)

/-- A connection that does not hold a role id was not the last to register with it. -/
theorem lastRegistered_ne {roleId : RoleId} (hc : s.armedConn c = some conn)
    (hne : conn.game.roleId ≠ roleId) : s.lastRegistered roleId ≠ some c := fun h => by
  have := lastRegistered_holds h
  rw [holdsRole_of_armed hc, decide_eq_true_eq] at this
  exact hne this

/-- Disarming a connection takes it out of the open ones. -/
theorem holdsRole_disarmed (hc : s.armedConn c = some conn) {t : GameServer}
    (ht : t.conns = s.conns.set c { conn with armed := false }) (roleId : RoleId) (x : ConnId) :
    t.holdsRole roleId x = (s.holdsRole roleId x && decide (x ≠ c)) := by
  by_cases hx : x = c
  · subst hx
    rw [holdsRole, armedConn_set_self hc t _ ht]
    simp
  · rw [holdsRole, armedConn_set_ne hx t _ ht]
    simp [holdsRole, hx]

/-- An accept keeps the table exact. -/
theorem routingExact_accept (hinv : RoutingInv s) (hs : RoutingExact s) (endpoint : String) :
    RoutingExact (s.onNewClient endpoint) := by
  intro roleId
  refine (hs roleId).trans ?_
  rw [lastRegistered, lastRegistered]
  refine congrArg List.getLast? (List.filter_congr fun c hc => ?_)
  have hlt := hinv.registered c hc
  rw [holdsRole, holdsRole, armedConn_onNewClient, if_neg (Nat.ne_of_lt hlt)]

/-- A connection that registers is the last to do so under its role id. -/
theorem lastRegistered_registered (hc : s.armedConn c = some conn) (roleId : RoleId) :
    (s.registered c conn roleId).lastRegistered roleId = some c := by
  have hholds : (s.registered c conn roleId).holdsRole roleId c = true := by
    rw [holdsRole_of_armed (armedConn_registered hc roleId)]
    exact decide_eq_true rfl
  show ((s.registrations ++ [c]).filter _).getLast? = some c
  rw [List.filter_append, List.filter_cons_of_pos hholds, List.filter_nil]
  exact List.getLast?_concat

/-- Under another role id, it is no longer among the open ones. -/
theorem lastRegistered_registered_ne (hc : s.armedConn c = some conn) {r roleId : RoleId}
    (hr : r ≠ roleId) : (s.registered c conn roleId).lastRegistered r = s.lastRegistered r ↔
      s.lastRegistered r ≠ some c := by
  have hnot : (s.registered c conn roleId).holdsRole r c = false := by
    rw [holdsRole_of_armed (armedConn_registered hc roleId)]
    exact decide_eq_false fun h => hr h.symm
  have hfilter : (s.registered c conn roleId).lastRegistered r =
      (s.registrations.filter ((s.registered c conn roleId).holdsRole r)).getLast? := by
    show ((s.registrations ++ [c]).filter _).getLast? = _
    rw [List.filter_append, List.filter_cons_of_neg (by rw [hnot]; exact Bool.false_ne_true),
      List.filter_nil, List.append_nil]
  rw [hfilter, lastRegistered]
  refine getLast?_filter_ne (fun x => ?_) _
  by_cases hx : x = c
  · subst hx
    simp [hnot]
  · rw [holdsRole, armedConn_set_ne hx (s.registered c conn roleId) _ rfl]
    simp [holdsRole, hx]

/-- A first message registers its connection; the table stays exact unless the connection was
routed to under role id 0 and takes another. -/
theorem routingExact_message (hinv : RoutingInv s) (hs : RoutingExact s)
    (hc : s.armedConn c = some conn) (roleId : RoleId) :
    RoutingExact (s.onMessage c conn roleId) ↔
      ¬ (conn.game.roleId = 0 ∧ roleId ≠ 0 ∧ s.roleIdConnMap.lookup 0 = some c) := by
  obtain ⟨hget, -⟩ := armedConn_eq_some.mp hc
  by_cases hzero : conn.game.roleId = 0
  swap
  · rw [onMessage_of_ne hget hzero]
    exact iff_of_true hs fun h => hzero h.1
  rw [onMessage_of_zero hzero (hinv.callback conn (List.mem_of_getElem? hget))]
  have hlookup : ∀ r, r ≠ roleId →
      (s.registered c conn roleId).roleIdConnMap.lookup r = s.lastRegistered r := fun r hr =>
    (AList.lookup_insert_ne hr).trans (hs r)
  constructor
  · rintro hexact ⟨-, hne, hmap⟩
    have h0 := (lastRegistered_registered_ne hc (Ne.symm hne)).mp
      ((hexact 0).symm.trans (hlookup 0 (Ne.symm hne)))
    rw [hs 0] at hmap
    exact h0 hmap
  · intro hcond r
    by_cases hr : r = roleId
    · subst hr
      rw [lastRegistered_registered hc]
      exact AList.lookup_insert _
    · refine (hlookup r hr).trans ((lastRegistered_registered_ne hc hr).mpr ?_).symm
      by_cases hr0 : r = 0
      · subst hr0
        rw [← hs 0]
        exact fun hmap => hcond ⟨hzero, Ne.symm hr, hmap⟩
      · exact lastRegistered_ne hc (by rw [hzero]; exact Ne.symm hr0)

/-- A close keeps the table exact when no other open connection is registered under the role id. -/
theorem routingExact_close (hs : RoutingExact s) (hc : s.armedConn c = some conn) :
    RoutingExact ((s.disarm c conn).onConnectionClose conn) ↔
      ∀ c' ∈ s.registrations, c' ≠ c → s.holdsRole conn.game.roleId c' = false := by
  set t := (s.disarm c conn).onConnectionClose conn with ht
  have hholds : ∀ roleId x, t.holdsRole roleId x = (s.holdsRole roleId x && decide (x ≠ c)) :=
    holdsRole_disarmed hc (by rw [ht, onConnectionClose_conns]; rfl)
  have hregs : t.registrations = s.registrations := by
    rw [ht, onConnectionClose_registrations]; rfl
  have hmap : t.roleIdConnMap = s.roleIdConnMap.erase conn.game.roleId := by
    rw [ht, onConnectionClose_roleIdConnMap]; rfl
  have hnone : t.lastRegistered conn.game.roleId = none ↔
      ∀ c' ∈ s.registrations, c' ≠ c → s.holdsRole conn.game.roleId c' = false := by
    rw [lastRegistered, hregs, List.getLast?_eq_none_iff, List.filter_eq_nil_iff]
    refine forall₂_congr fun c' _ => ?_
    rw [hholds, Bool.and_eq_true, decide_eq_true_eq, not_and, ← Bool.not_eq_true]
    exact ⟨fun h hne hh => h hh hne, fun h hh hne => h hne hh⟩
  constructor
  · intro hexact
    have h := hexact conn.game.roleId
    rw [hmap, AList.lookup_erase] at h
    exact hnone.mp h.symm
  · intro hcond r
    by_cases hr : r = conn.game.roleId
    · rw [hr, hmap, AList.lookup_erase]
      exact (hnone.mpr hcond).symm
    · rw [hmap, AList.lookup_erase_ne hr, hs r]
      exact ((lastRegistered_eq_iff hregs (hholds r)).mpr (lastRegistered_ne hc (Ne.symm hr))).symm

/-- A loop that ends unreported keeps the table exact when it was not routed to. -/
theorem routingExact_disarm (hs : RoutingExact s) (hc : s.armedConn c = some conn) :
    RoutingExact (s.disarm c conn) ↔ s.roleIdConnMap.lookup conn.game.roleId ≠ some c := by
  have hkeep : ∀ r, (s.disarm c conn).lastRegistered r = s.lastRegistered r ↔
      s.lastRegistered r ≠ some c := fun r =>
    lastRegistered_eq_iff rfl (holdsRole_disarmed hc rfl r)
  constructor
  · intro hexact
    rw [hs conn.game.roleId]
    refine (hkeep _).mp ?_
    rw [← hexact, ← hs]
    rfl
  · intro hcond r
    refine (hs r).trans ((hkeep r).mpr ?_).symm
    by_cases hr : conn.game.roleId = r
    · subst hr
      rwa [← hs]
    · exact lastRegistered_ne hc hr

end Events

/-! ## Runs -/

theorem routingInv_set {s t : GameServer} {c : ConnId} {x : ServerConn} (h : RoutingInv s)
    (hx : x.game.registerFunc = true) (hconns : t.conns = s.conns.set c x)
    (hregs : ∀ c' ∈ t.registrations, c' ∈ s.registrations ∨ c' < s.conns.length) : RoutingInv t := by
  refine ⟨fun c' hc' => ?_, fun conn hconn => ?_⟩
  · rw [hconns, List.length_set]
    exact (hregs c' hc').elim (h.registered c') id
  · rw [hconns] at hconn
    rcases List.mem_or_eq_of_mem_set hconn with hmem | rfl
    · exact h.callback conn hmem
    · exact hx

theorem routingInv_onMessage {s : GameServer} {c : ConnId} {conn : ServerConn} (h : RoutingInv s)
    (hc : s.armedConn c = some conn) (roleId : RoleId) : RoutingInv (s.onMessage c conn roleId) := by
  obtain ⟨hget, -⟩ := armedConn_eq_some.mp hc
  have hcallback := h.callback conn (List.mem_of_getElem? hget)
  by_cases hzero : conn.game.roleId = 0
  · rw [onMessage_of_zero hzero hcallback]
    refine routingInv_set h (c := c) (x := { conn with game := { conn.game with roleId := roleId } })
      hcallback rfl fun c' hc' => ?_
    rcases List.mem_append.mp hc' with hmem | hmem
    · exact .inl hmem
    · rw [List.mem_singleton.mp hmem]
      exact .inr (List.getElem?_eq_some_iff.mp hget).1
  · rw [onMessage_of_ne hget hzero]
    exact h

theorem routingInv_step {s s' : GameServer} {e : ServerEvent} (h : RoutingInv s)
    (hs : s.step e = .ok s') : RoutingInv s' := by
  cases e with
  | accept endpoint =>
    cases hs
    refine ⟨fun c hc => ?_, fun conn hconn => ?_⟩
    · exact Nat.lt_of_lt_of_le (h.registered c hc) (by simp [onNewClient])
    · rcases List.mem_append.mp hconn with hmem | hmem
      · exact h.callback conn hmem
      · rw [List.mem_singleton.mp hmem]
  | message c roleId =>
    simp only [step] at hs
    split at hs
    · cases hs; exact h
    · next conn hc =>
      split at hs
      · cases hs
        exact routingInv_onMessage h hc roleId
      · cases hs
  | readError c ec =>
    rcases readError_cases hs with rfl | ⟨conn, hc, hconns, hregs, -⟩
    · exact h
    · have hcallback := h.callback conn (List.mem_of_getElem? (armedConn_eq_some.mp hc).1)
      exact routingInv_set h (x := { conn with armed := false }) hcallback hconns fun c' hc' =>
        .inl (hregs ▸ hc')

/-- When an event keeps the table exact. -/
theorem step_routingExact {s : GameServer} {e : ServerEvent} (hinv : RoutingInv s)
    (hs : RoutingExact s) :
    (∃ s', s.step e = .ok s' ∧ RoutingExact s') ↔ s.KeepsRouting e := by
  cases e with
  | accept endpoint =>
    exact iff_of_true ⟨_, rfl, routingExact_accept hinv hs endpoint⟩ trivial
  | message c roleId =>
    simp only [step, KeepsRouting]
    cases hc : s.armedConn c with
    | none => exact iff_of_true ⟨s, rfl, hs⟩ fun conn h => by cases h
    | some conn =>
      have hmsg := routingExact_message hinv hs hc roleId
      dsimp only
      constructor
      · rintro ⟨s', hs', hexact⟩ conn' heq
        cases heq
        split at hs'
        · next howned => cases hs'; exact ⟨howned, hmsg.mp hexact⟩
        · cases hs'
      · intro h
        obtain ⟨howned, hcond⟩ := h conn rfl
        exact ⟨_, if_pos howned, hmsg.mpr hcond⟩
  | readError c ec =>
    simp only [step, KeepsRouting]
    cases hc : s.armedConn c with
    | none => exact iff_of_true ⟨s, rfl, hs⟩ fun conn h => by cases h
    | some conn =>
      by_cases hec : ec.Closes
      · have hclose := routingExact_close hs hc
        simp only [if_pos hec]
        constructor
        · rintro ⟨s', hs', hexact⟩ conn' heq
          cases heq
          split at hs'
          · next howned => cases hs'; exact ⟨howned, hclose.mp hexact⟩
          · cases hs'
        · intro h
          obtain ⟨howned, hcond⟩ := h conn rfl
          exact ⟨_, if_pos howned, hclose.mpr hcond⟩
      · have hdisarm := routingExact_disarm hs hc
        simp only [if_neg hec]
        constructor
        · rintro ⟨s', hs', hexact⟩ conn' heq
          cases heq
          cases hs'
          exact hdisarm.mp hexact
        · exact fun h => ⟨_, rfl, hdisarm.mpr (h conn rfl)⟩

theorem routingInv_new (serverName : String) : RoutingInv (new serverName) :=
  ⟨fun c hc => (by cases hc), fun conn hconn => (by cases hconn)⟩

/-- **The role table is exact throughout a run exactly when each event meets the condition.** -/
theorem routing_exact_iff (serverName : String) (events : List ServerEvent) :
    Safe step RoutingExact (new serverName) events ↔
      EachStep step KeepsRouting (new serverName) events :=
  safe_iff_eachStep (I := RoutingInv) (G := fun _ _ => True)
    (fun _ _ _ hinv _ _ _ hs => routingInv_step hinv hs)
    (fun _ _ hinv hs _ => step_routingExact hinv hs)
    (routingInv_new serverName) (fun _ => rfl) (fun _ _ _ _ _ => trivial)

/-- A client connects again before its old connection is seen to close. -/
def reconnect : List ServerEvent :=
  [.accept "a", .message 0 7, .accept "b", .message 1 7, .readError 0 .eof]

theorem reconnect_unregisters :
    (∃ t, run step (new "s") reconnect = .ok t ∧ t.roleIdConnMap.lookup 7 = none ∧
      t.lastRegistered 7 = some 1) ∧ ¬ Safe step RoutingExact (new "s") reconnect := by
  have hrun : ∃ t, run step (new "s") reconnect = .ok t ∧ t.roleIdConnMap.lookup 7 = none ∧
      t.lastRegistered 7 = some 1 := ⟨_, rfl, by decide, by decide⟩
  refine ⟨hrun, fun h => ?_⟩
  obtain ⟨t, ht, hmap, hlast⟩ := hrun
  obtain ⟨t', ht', hexact⟩ := h reconnect (List.prefix_refl _)
  rw [ht] at ht'
  cases ht'
  have := hexact 7
  rw [hmap, hlast] at this
  cases this

end GameServer

end GameNetwork
