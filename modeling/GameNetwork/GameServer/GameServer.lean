import Mathlib.Data.List.AList
import GameNetwork.Lib.Run
import GameNetwork.Network.TcpConnection

/-!
# The server's tables

`GameServer/GameServer.h`, `GameServer/GameServer.cpp` and the accept path of
`GameServer/AsioServer.h`. Connections are numbered as they are accepted. A
`GameConnection` lives as long as one of the two tables refers to it, but the
callbacks of its `TcpConnection` keep a bare pointer to it: a callback on a
connection that no table refers to is the fault `danglingObject`.

`step` takes accepts, received messages and read errors, in any order. The
one thing a message does to these tables is what `onNewData` does with its
role id (`GameConnection.takeRole`, `GameConnection.registration`).
-/

namespace GameNetwork

open Lib

/-- The number of a connection, in the order of accepts. -/
abbrev ConnId := Nat

/-- An accepted connection. -/
structure ServerConn where
  /-- The remote endpoint, printed. -/
  endpoint : String
  /-- Its `GameConnection`. -/
  game : GameConnection
  /-- The receive loop has a read outstanding. -/
  armed : Bool
  deriving DecidableEq, Repr

structure GameServer where
  serverName : String
  /-- All the connections accepted so far. -/
  conns : List ServerConn
  tcpConnectionMap : AList fun _ : String => ConnId
  gameConnectionMap : AList fun _ : String => ConnId
  roleIdConnMap : AList fun _ : RoleId => ConnId
  /-- The calls of `on_role_disconnct_func_`. -/
  roleDisconnects : List RoleId
  /-- The connections that have registered, in order. -/
  registrations : List ConnId

inductive ServerEvent where
  | accept (endpoint : String)
  /-- A message with this role id is received. -/
  | message (c : ConnId) (roleId : RoleId)
  | readError (c : ConnId) (ec : ErrorCode)
  deriving DecidableEq, Repr

/-- The errors on which `AsyncWaitData` calls `on_conn_close_func_`. -/
def ErrorCode.Closes (ec : ErrorCode) : Prop := ec = .eof ∨ ec = .connectionReset

instance (ec : ErrorCode) : Decidable ec.Closes := inferInstanceAs (Decidable (_ ∨ _))

namespace GameServer

def new (serverName : String) : GameServer := ⟨serverName, [], ∅, ∅, ∅, [], []⟩

/-- `server_name_ << "#" << remote_endpoint()`. -/
def connectionName (s : GameServer) (endpoint : String) : String := s.serverName ++ ("#" ++ endpoint)

/-- A table refers to the connection. -/
def owned (s : GameServer) (c : ConnId) : Bool :=
  s.gameConnectionMap.entries.any (·.2 = c) || s.roleIdConnMap.entries.any (·.2 = c)

/-- `OnNewClient`, and the `OnNewTcpConnection` it calls. -/
def onNewClient (s : GameServer) (endpoint : String) : GameServer :=
  let c := s.conns.length
  let connectionName := s.connectionName endpoint
  { s with
    conns := s.conns ++ [⟨endpoint, ⟨0, true⟩, true⟩]
    tcpConnectionMap := s.tcpConnectionMap.insert connectionName c
    -- `insert` leaves an entry of the same key as it is
    gameConnectionMap := if connectionName ∈ s.gameConnectionMap then s.gameConnectionMap
      else s.gameConnectionMap.insert connectionName c }

def addConnToRoleMap (s : GameServer) (roleId : RoleId) (c : ConnId) : GameServer :=
  { s with roleIdConnMap := s.roleIdConnMap.insert roleId c
           registrations := s.registrations ++ [c] }

/-- `OnConnectionClose`. -/
def onConnectionClose (s : GameServer) (conn : ServerConn) : GameServer :=
  let roleId := conn.game.roleId
  if roleId ∈ s.roleIdConnMap then
    let s := { s with roleIdConnMap := s.roleIdConnMap.erase roleId }
    let connectionName := s.connectionName conn.endpoint
    if connectionName ∈ s.gameConnectionMap then
      { s with gameConnectionMap := s.gameConnectionMap.erase connectionName
               roleDisconnects := s.roleDisconnects ++ [roleId] }
    else s
  else s

/-- The callbacks of one turn that concern the tables. -/
def register (s : GameServer) (c : ConnId) : List ConnCall → GameServer
  | [] => s
  | .register roleId :: calls => (s.addConnToRoleMap roleId c).register c calls
  | .newMsg _ :: calls => s.register c calls

/-- What a received message does. -/
def onMessage (s : GameServer) (c : ConnId) (conn : ServerConn) (roleId : RoleId) : GameServer :=
  { s with conns := s.conns.set c { conn with game := conn.game.takeRole roleId } }.register c
    (conn.game.registration roleId)

/-- The end of a receive loop. -/
def disarm (s : GameServer) (c : ConnId) (conn : ServerConn) : GameServer :=
  { s with conns := s.conns.set c { conn with armed := false } }

/-- The connection, while its receive loop is armed. -/
def armedConn (s : GameServer) (c : ConnId) : Option ServerConn :=
  s.conns[c]?.filter (·.armed)

/-- One event. Nothing is received, and no error read, on a connection that is not armed. -/
def step (s : GameServer) : ServerEvent → Except Fault GameServer
  | .accept endpoint => return s.onNewClient endpoint
  | .message c roleId =>
    match s.armedConn c with
    | none => return s
    | some conn => if s.owned c then return s.onMessage c conn roleId else .error .danglingObject
  | .readError c ec =>
    match s.armedConn c with
    | none => return s
    | some conn =>
      if ec.Closes then
        if s.owned c then return (s.disarm c conn).onConnectionClose conn else .error .danglingObject
      else return s.disarm c conn

/-! ## What the events do -/

section Lemmas

variable {s : GameServer} {c : ConnId} {conn : ServerConn}

theorem armedConn_eq_some : s.armedConn c = some conn ↔ s.conns[c]? = some conn ∧ conn.armed = true := by
  simp [armedConn, Option.filter_eq_some_iff]

/-- After a change of one connection, another one is as it was. -/
theorem armedConn_set_ne {c' : ConnId} (h : c' ≠ c) (t : GameServer) (x : ServerConn)
    (ht : t.conns = s.conns.set c x) : t.armedConn c' = s.armedConn c' := by
  rw [armedConn, armedConn, ht, List.getElem?_set_ne h.symm]

theorem armedConn_set_self (hc : s.armedConn c = some conn) (t : GameServer) (x : ServerConn)
    (ht : t.conns = s.conns.set c x) : t.armedConn c = if x.armed then some x else none := by
  obtain ⟨hget, -⟩ := armedConn_eq_some.mp hc
  obtain ⟨hlt, -⟩ := List.getElem?_eq_some_iff.mp hget
  rw [armedConn, ht, List.getElem?_set_self hlt]
  rfl

theorem armedConn_onNewClient (endpoint : String) (c : Nat) :
    (s.onNewClient endpoint).armedConn c =
      if c = s.conns.length then some ⟨endpoint, ⟨0, true⟩, true⟩ else s.armedConn c := by
  rw [armedConn, armedConn]
  simp only [onNewClient]
  split
  · next h => rw [h, List.getElem?_concat_length]; rfl
  · next h =>
    by_cases hlt : c < s.conns.length
    · rw [List.getElem?_append_left hlt]
    · have hnew : (s.conns ++ [(⟨endpoint, ⟨0, true⟩, true⟩ : ServerConn)])[c]? = none :=
        List.getElem?_eq_none (by rw [List.length_append, List.length_singleton]; omega)
      have hold : s.conns[c]? = none := List.getElem?_eq_none (by omega)
      rw [hnew, hold]

@[simp] theorem register_conns (c : ConnId) (calls : List ConnCall) :
    (s.register c calls).conns = s.conns := by
  induction calls generalizing s with
  | nil => rfl
  | cons call calls ih => cases call <;> exact ih

@[simp] theorem register_gameConnectionMap (c : ConnId) (calls : List ConnCall) :
    (s.register c calls).gameConnectionMap = s.gameConnectionMap := by
  induction calls generalizing s with
  | nil => rfl
  | cons call calls ih => cases call <;> exact ih

@[simp] theorem register_serverName (c : ConnId) (calls : List ConnCall) :
    (s.register c calls).serverName = s.serverName := by
  induction calls generalizing s with
  | nil => rfl
  | cons call calls ih => cases call <;> exact ih

theorem owned_of_game {name : String} (h : s.gameConnectionMap.lookup name = some c) :
    s.owned c = true := by
  rw [owned, Bool.or_eq_true]
  exact .inl (List.any_eq_true.mpr ⟨_, AList.mem_lookup_iff.mp h, by simp⟩)

/-- The state once a connection has taken a role id and registered. -/
def registered (s : GameServer) (c : ConnId) (conn : ServerConn) (roleId : RoleId) : GameServer :=
  { s with conns := s.conns.set c { conn with game := { conn.game with roleId := roleId } }
           roleIdConnMap := s.roleIdConnMap.insert roleId c
           registrations := s.registrations ++ [c] }

/-- A message of a connection that has no role id yet registers it. -/
theorem onMessage_of_zero {roleId : RoleId} (h : conn.game.roleId = 0)
    (hf : conn.game.registerFunc = true) : s.onMessage c conn roleId = s.registered c conn roleId := by
  simp only [onMessage, GameConnection.takeRole, GameConnection.registration, h, hf, and_self, if_true,
    register, addConnToRoleMap, registered]

theorem armedConn_registered (hc : s.armedConn c = some conn) (roleId : RoleId) :
    (s.registered c conn roleId).armedConn c =
      some { conn with game := { conn.game with roleId := roleId } } := by
  rw [armedConn_set_self hc (s.registered c conn roleId) _ rfl]
  exact if_pos (armedConn_eq_some.mp hc).2

/-- Later messages change nothing. -/
theorem onMessage_of_ne {roleId : RoleId} (hc : s.conns[c]? = some conn) (h : conn.game.roleId ≠ 0) :
    s.onMessage c conn roleId = s := by
  have hset : s.conns.set c conn = s.conns := by
    obtain ⟨hlt, rfl⟩ := List.getElem?_eq_some_iff.mp hc
    exact List.set_getElem_self hlt
  simp only [onMessage, GameConnection.takeRole, GameConnection.registration, h, false_and, if_false,
    register, hset]

theorem onConnectionClose_of_notMem (h : conn.game.roleId ∉ s.roleIdConnMap) :
    s.onConnectionClose conn = s := by
  rw [onConnectionClose, if_neg h]

theorem onConnectionClose_of_mem (h : conn.game.roleId ∈ s.roleIdConnMap)
    (hname : s.connectionName conn.endpoint ∈ s.gameConnectionMap) :
    s.onConnectionClose conn =
      { s with roleIdConnMap := s.roleIdConnMap.erase conn.game.roleId
               gameConnectionMap := s.gameConnectionMap.erase (s.connectionName conn.endpoint)
               roleDisconnects := s.roleDisconnects ++ [conn.game.roleId] } := by
  rw [onConnectionClose, if_pos h]
  exact if_pos hname

@[simp] theorem onConnectionClose_conns : (s.onConnectionClose conn).conns = s.conns := by
  simp only [onConnectionClose]
  split
  · split <;> rfl
  · rfl

@[simp] theorem onConnectionClose_registrations :
    (s.onConnectionClose conn).registrations = s.registrations := by
  simp only [onConnectionClose]
  split
  · split <;> rfl
  · rfl

@[simp] theorem onConnectionClose_roleIdConnMap :
    (s.onConnectionClose conn).roleIdConnMap = s.roleIdConnMap.erase conn.game.roleId := by
  simp only [onConnectionClose]
  split
  · split <;> rfl
  · next h => exact (AList.ext (List.kerase_of_notMem_keys (AList.mem_keys.not.mp h)).symm)

/-- What a read error does that is not fatal: it disarms its connection, and may close it. -/
theorem readError_cases {ec : ErrorCode} {s' : GameServer} (h : s.step (.readError c ec) = .ok s') :
    s' = s ∨ ∃ conn, s.armedConn c = some conn ∧
      s'.conns = s.conns.set c { conn with armed := false } ∧ s'.registrations = s.registrations ∧
      (s' = (s.disarm c conn).onConnectionClose conn ∨ s' = s.disarm c conn) := by
  simp only [step] at h
  split at h
  · cases h
    exact .inl rfl
  · next conn hc =>
    refine .inr ⟨conn, hc, ?_⟩
    split at h
    · split at h
      · cases h
        exact ⟨onConnectionClose_conns, onConnectionClose_registrations, .inl rfl⟩
      · cases h
    · cases h
      exact ⟨rfl, rfl, .inr rfl⟩

end Lemmas

end GameServer

end GameNetwork
