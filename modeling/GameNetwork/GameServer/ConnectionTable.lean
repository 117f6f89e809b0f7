import GameNetwork.GameServer.GameServer

/-!
# The connection table

`TableExact`: `game_connection_map_` has the name of every connection whose
receive loop is armed, for that connection, and nothing else. A connection is
stored when it is accepted and must be removed when its loop ends, which
`OnConnectionClose` only comes to on an error the loop reports and when some
connection is routed to under the connection's role id. `table_exact_iff` says
that these are the only conditions.
-/

namespace GameNetwork

open Lib

namespace GameServer

/-- **The connection table is exact.** -/
structure TableExact (s : GameServer) : Prop where
  stored : ∀ c conn, s.armedConn c = some conn →
    s.gameConnectionMap.lookup (s.connectionName conn.endpoint) = some c
  live : ∀ name c, s.gameConnectionMap.lookup name = some c →
    ∃ conn, s.armedConn c = some conn ∧ s.connectionName conn.endpoint = name

/-- Connections open at the same time have different remote endpoints. -/
def FreshEndpoint (s : GameServer) : ServerEvent → Prop
  | .accept endpoint => ∀ c conn, s.armedConn c = some conn → conn.endpoint ≠ endpoint
  | _ => True

/-- The condition on an event and the state it finds. -/
def KeepsTable (s : GameServer) : ServerEvent → Prop
  | .readError c ec => ∀ conn, s.armedConn c = some conn →
      ec.Closes ∧ conn.game.roleId ∈ s.roleIdConnMap
  | _ => True

section Events

variable {s : GameServer} {c : ConnId} {conn : ServerConn}

theorem connectionName_inj {a b : String} (h : s.connectionName a = s.connectionName b) : a = b :=
  (String.append_right_inj "#").mp ((String.append_right_inj s.serverName).mp h)

/-- With an exact table no two armed connections have one name. -/
theorem TableExact.unique (hs : TableExact s) {c' : ConnId} {conn' : ServerConn}
    (hc : s.armedConn c = some conn) (hc' : s.armedConn c' = some conn')
    (hname : conn.endpoint = conn'.endpoint) : c = c' := by
  have h := hs.stored c conn hc
  rw [hname, hs.stored c' conn' hc'] at h
  exact (Option.some.inj h).symm

theorem TableExact.owned (hs : TableExact s) (hc : s.armedConn c = some conn) : s.owned c = true :=
  owned_of_game (hs.stored c conn hc)

/-- An accepted connection is stored. -/
theorem tableExact_accept (hs : TableExact s) {endpoint : String}
    (hfresh : s.FreshEndpoint (.accept endpoint)) : TableExact (s.onNewClient endpoint) := by
  have hnot : s.connectionName endpoint ∉ s.gameConnectionMap := by
    rw [← AList.lookup_isSome]
    intro h
    obtain ⟨c, hc⟩ := Option.isSome_iff_exists.mp h
    obtain ⟨conn, harmed, hname⟩ := hs.live _ c hc
    exact hfresh c conn harmed (connectionName_inj hname)
  have hmap : (s.onNewClient endpoint).gameConnectionMap =
      s.gameConnectionMap.insert (s.connectionName endpoint) s.conns.length := if_neg hnot
  have harmed := armedConn_onNewClient (s := s) endpoint
  refine ⟨fun c conn hc => ?_, fun name c hc => ?_⟩
  · rw [harmed] at hc
    rw [hmap]
    split at hc
    · next h =>
      cases hc
      rw [h]
      exact AList.lookup_insert _
    · have hne : s.connectionName conn.endpoint ≠ s.connectionName endpoint := fun h =>
        hfresh c conn hc (connectionName_inj h)
      exact (AList.lookup_insert_ne hne).trans (hs.stored c conn hc)
  · rw [hmap] at hc
    by_cases hname : name = s.connectionName endpoint
    · rw [hname, AList.lookup_insert] at hc
      cases hc
      exact ⟨⟨endpoint, ⟨0, true⟩, true⟩, by rw [harmed, if_pos rfl], hname.symm⟩
    · rw [AList.lookup_insert_ne hname] at hc
      obtain ⟨conn, hconn, hname'⟩ := hs.live name c hc
      refine ⟨conn, ?_, hname'⟩
      have hlt := (List.getElem?_eq_some_iff.mp (armedConn_eq_some.mp hconn).1).1
      rw [harmed, if_neg (by omega)]
      exact hconn

/-- A message leaves the table alone. -/
theorem tableExact_message (hs : TableExact s) (hc : s.armedConn c = some conn) (roleId : RoleId) :
    TableExact (s.onMessage c conn roleId) := by
  set t := s.onMessage c conn roleId with ht
  have hconns : t.conns = s.conns.set c { conn with game := conn.game.takeRole roleId } := by
    rw [ht, onMessage, register_conns]
  have hmap : t.gameConnectionMap = s.gameConnectionMap := by
    rw [ht, onMessage, register_gameConnectionMap]
  have hname : t.connectionName = s.connectionName := by
    funext endpoint
    rw [connectionName, ht, onMessage, register_serverName]
    rfl
  have hself : t.armedConn c = some { conn with game := conn.game.takeRole roleId } := by
    rw [armedConn_set_self hc t _ hconns]
    exact if_pos (armedConn_eq_some.mp hc).2
  refine ⟨fun c' conn' hc' => ?_, fun name c' hc' => ?_⟩
  · rw [hmap, hname]
    by_cases h : c' = c
    · subst h
      rw [hself] at hc'
      cases hc'
      exact hs.stored c' conn hc
    · rw [armedConn_set_ne h t _ hconns] at hc'
      exact hs.stored c' conn' hc'
  · rw [hmap] at hc'
    obtain ⟨conn', hconn', hname'⟩ := hs.live name c' hc'
    rw [hname]
    by_cases h : c' = c
    · subst h
      rw [hc] at hconn'
      cases hconn'
      exact ⟨_, hself, hname'⟩
    · exact ⟨conn', by rw [armedConn_set_ne h t _ hconns]; exact hconn', hname'⟩

/-- The end of a receive loop that `OnConnectionClose` follows through. -/
theorem tableExact_close (hs : TableExact s) (hc : s.armedConn c = some conn)
    (hrole : conn.game.roleId ∈ s.roleIdConnMap) :
    TableExact ((s.disarm c conn).onConnectionClose conn) := by
  have hstored := hs.stored c conn hc
  have hmem : s.connectionName conn.endpoint ∈ s.gameConnectionMap :=
    AList.lookup_isSome.mp (by rw [hstored]; rfl)
  have hclose := onConnectionClose_of_mem (s := s.disarm c conn) hrole hmem
  set t := (s.disarm c conn).onConnectionClose conn with ht
  have hconns : t.conns = s.conns.set c { conn with armed := false } := by
    rw [ht, onConnectionClose_conns]; rfl
  have hmap : t.gameConnectionMap = s.gameConnectionMap.erase (s.connectionName conn.endpoint) := by
    rw [hclose]; rfl
  have hname : t.connectionName = s.connectionName := by rw [hclose]; rfl
  have hself : t.armedConn c = none := by
    rw [armedConn_set_self hc t _ hconns]
    exact if_neg Bool.false_ne_true
  have hother : ∀ c', c' ≠ c → t.armedConn c' = s.armedConn c' := fun c' h =>
    armedConn_set_ne h t _ hconns
  refine ⟨fun c' conn' hc' => ?_, fun name c' hc' => ?_⟩
  · have hne : c' ≠ c := fun h => by rw [h, hself] at hc'; cases hc'
    rw [hother c' hne] at hc'
    have hdiff : s.connectionName conn'.endpoint ≠ s.connectionName conn.endpoint := fun h =>
      hne (hs.unique hc' hc (connectionName_inj h))
    rw [hmap, hname, AList.lookup_erase_ne hdiff]
    exact hs.stored c' conn' hc'
  · rw [hmap] at hc'
    have hdiff : name ≠ s.connectionName conn.endpoint := fun h => by
      rw [h, AList.lookup_erase] at hc'
      cases hc'
    rw [AList.lookup_erase_ne hdiff] at hc'
    obtain ⟨conn', hconn', hname'⟩ := hs.live name c' hc'
    have hne : c' ≠ c := fun h => by
      rw [h, hc] at hconn'
      cases hconn'
      exact hdiff hname'.symm
    exact ⟨conn', (hother c' hne).trans hconn', by rw [hname]; exact hname'⟩

/-- A loop that ends and leaves the table as it was leaves it wrong. -/
theorem not_tableExact_of_disarmed (hs : TableExact s) (hc : s.armedConn c = some conn)
    {t : GameServer} (hconns : t.conns = s.conns.set c { conn with armed := false })
    (hmap : t.gameConnectionMap = s.gameConnectionMap) : ¬ TableExact t := by
  intro ht
  obtain ⟨conn', hconn', -⟩ := ht.live _ c (by rw [hmap]; exact hs.stored c conn hc)
  rw [armedConn_set_self hc t _ hconns] at hconn'
  cases hconn'

end Events

/-- When an event keeps the table exact. -/
theorem step_tableExact {s : GameServer} {e : ServerEvent} (hs : TableExact s)
    (hfresh : s.FreshEndpoint e) : (∃ s', s.step e = .ok s' ∧ TableExact s') ↔ s.KeepsTable e := by
  cases e with
  | accept endpoint => exact iff_of_true ⟨_, rfl, tableExact_accept hs hfresh⟩ trivial
  | message c roleId =>
    simp only [step, KeepsTable]
    cases hc : s.armedConn c with
    | none => exact iff_of_true ⟨s, rfl, hs⟩ trivial
    | some conn =>
      exact iff_of_true ⟨_, if_pos (hs.owned hc), tableExact_message hs hc roleId⟩ trivial
  | readError c ec =>
    simp only [step, KeepsTable]
    cases hc : s.armedConn c with
    | none => exact iff_of_true ⟨s, rfl, hs⟩ fun conn h => by cases h
    | some conn =>
      by_cases hec : ec.Closes
      · simp only [if_pos hec, hs.owned hc, if_true]
        by_cases hrole : conn.game.roleId ∈ s.roleIdConnMap
        · refine iff_of_true ⟨_, rfl, tableExact_close hs hc hrole⟩ fun conn' h => ?_
          cases h
          exact ⟨hec, hrole⟩
        · have hwrong := not_tableExact_of_disarmed hs hc (t := s.disarm c conn) rfl rfl
          refine iff_of_false ?_ fun h => hrole (h conn rfl).2
          rintro ⟨s', hs', hexact⟩
          cases hs'
          rw [onConnectionClose_of_notMem (s := s.disarm c conn) hrole] at hexact
          exact hwrong hexact
      · simp only [if_neg hec]
        have hwrong := not_tableExact_of_disarmed hs hc (t := s.disarm c conn) rfl rfl
        refine iff_of_false ?_ fun h => hec (h conn rfl).1
        rintro ⟨s', hs', hexact⟩
        cases hs'
        exact hwrong hexact

/-- **The connection table is exact throughout a run exactly when every receive loop ends with an
error it reports while its role id is routed to some connection.** -/
theorem table_exact_iff (serverName : String) {events : List ServerEvent}
    (hfresh : EachStep step FreshEndpoint (new serverName) events) :
    Safe step TableExact (new serverName) events ↔
      EachStep step KeepsTable (new serverName) events :=
  safe_iff_eachStep (I := fun _ => True) (fun _ _ _ _ _ _ _ _ => trivial)
    (fun _ _ _ hs hf => step_tableExact hs hf) trivial
    ⟨fun c conn hc => (by cases hc), fun name c hc => (by cases hc)⟩ hfresh

/-- A client that leaves without a message, and comes back from the same endpoint. -/
def silentClient : List ServerEvent :=
  [.accept "a", .readError 0 .eof, .accept "a", .message 1 7]

theorem silentClient_fresh : EachStep step FreshEndpoint (new "s") silentClient := by
  refine eachStep_cons.mpr ⟨fun c conn h => (by cases h), ?_⟩
  rintro s₁ ⟨⟩
  refine eachStep_cons.mpr ⟨trivial, ?_⟩
  rintro s₂ ⟨⟩
  refine eachStep_cons.mpr ⟨fun c conn h => ?_, ?_⟩
  · obtain ⟨hget, harmed⟩ := armedConn_eq_some.mp h
    cases c with
    | zero => cases hget; cases harmed
    | succ c => cases hget
  rintro s₃ ⟨⟩
  exact eachStep_cons.mpr ⟨trivial, fun _ _ => eachStep_nil⟩

theorem silentClient_stays :
    EachStep step FreshEndpoint (new "s") silentClient ∧
    (∃ t, run step (new "s") [.accept "a", .readError 0 .eof] = .ok t ∧ t.armedConn 0 = none ∧
      t.gameConnectionMap.lookup "s#a" = some 0) ∧
    run step (new "s") silentClient = .error .danglingObject ∧
    ¬ Safe step TableExact (new "s") silentClient := by
  have hfault : run step (new "s") silentClient = .error .danglingObject := rfl
  refine ⟨silentClient_fresh, ⟨_, rfl, rfl, by decide⟩, hfault, fun h => ?_⟩
  obtain ⟨t, ht, -⟩ := h silentClient (List.prefix_refl _)
  rw [hfault] at ht
  cases ht

theorem client_leaves :
    Safe step TableExact (new "s") [.accept "a", .message 0 7, .readError 0 .eof] := by
  refine (table_exact_iff "s" ?_).mpr ?_
  · refine eachStep_cons.mpr ⟨fun c conn h => (by cases h), fun _ _ => ?_⟩
    refine eachStep_cons.mpr ⟨trivial, fun _ _ => ?_⟩
    exact eachStep_cons.mpr ⟨trivial, fun _ _ => eachStep_nil⟩
  · refine eachStep_cons.mpr ⟨trivial, ?_⟩
    rintro s₁ ⟨⟩
    refine eachStep_cons.mpr ⟨trivial, ?_⟩
    rintro s₂ ⟨⟩
    refine eachStep_cons.mpr ⟨fun conn h => ?_, fun _ _ => eachStep_nil⟩
    cases h
    exact ⟨.inl rfl, by decide⟩

end GameServer

end GameNetwork
