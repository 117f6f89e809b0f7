import GameNetwork.Network.MsgDispatcher
import GameNetwork.Network.SendPath

/-!
# Synchronous requests

`GameClient/GameClient.h`, `GameClient/GameClient.cpp`. `SendMsgSync` takes an
id and a future from the dispatcher (`setSyncMessageId`), sends the message,
and waits on the future, which the dispatch of the reply fulfils. Any number
of calls may be under way, for any roles; `step` takes their two halves and
the replies in any order.

Ids are counted per role, but promises are found by the id alone.
`own_replies_iff` says when this goes well: no request may become a role's
`k`-th while another role's `k`-th is unanswered, and no role may make 2^32.
-/

namespace GameNetwork

open Lib

/-- The dispatcher that the constructor of `GameClient` starts. -/
def GameClient.recvMsgDispatcher : Except Fault MsgDispatcher := do
  let d ← (MsgDispatcher.new 1 true).setMsgCallback .ping 1
  let d ← d.setMsgCallback .gameStart 2
  return d.start.1

/-- A call of `SendMsgSync`. -/
structure SyncRequest where
  roleId : RoleId
  /-- The message, with its id. -/
  message : Message
  /-- The shared state of its future. -/
  future : Nat
  /-- How many calls for this role there were with it. -/
  ordinal : Nat
  deriving DecidableEq, Repr

def SyncRequest.uniqueId (q : SyncRequest) : BitVec 32 := q.message.base.messageUniqueId

/-- A client, and the history of its requests. -/
structure SyncClient where
  recvMsgDispatcher : MsgDispatcher
  /-- `conn_map_`, and what is sent. -/
  sending : Sending
  /-- The calls of `SendMsgSync` so far, in order. -/
  requests : List SyncRequest
  /-- The calls that have come to `SendMsgAsync`. -/
  sent : Nat → Bool
  /-- The server's replies, by request. -/
  replies : Nat → Option Message

inductive SyncEvent where
  /-- `SendMsgSync` is called, and calls `SetSyncMessageId`. -/
  | request (roleId : RoleId) (message : Message)
  /-- The `j`-th call goes on to `SendMsgAsync`. -/
  | send (j : Nat)
  /-- The server's reply to the `j`-th call is dispatched. -/
  | reply (j : Nat) (message : Message)
  deriving DecidableEq, Repr

namespace SyncClient

def new (d : MsgDispatcher) (connMap : RoleId → Option ConnId) : SyncClient where
  recvMsgDispatcher := d
  sending := { Sending.new with connMap := connMap }
  requests := []
  sent := fun _ => false
  replies := fun _ => none

/-- The number of calls for a role. -/
def calls (s : SyncClient) (roleId : RoleId) : Nat := s.requests.countP fun q => q.roleId = roleId

def step (s : SyncClient) : SyncEvent → Except Fault SyncClient
  | .request roleId message => do
    let (future, message, d) ← s.recvMsgDispatcher.setSyncMessageId roleId message
    return { s with recvMsgDispatcher := d
                    requests := s.requests ++ [⟨roleId, message, future, s.calls roleId + 1⟩] }
  | .send j =>
    match s.requests[j]? with
    | none => return s
    | some q =>
      if s.sent j then return s
      else do
        let sending ← s.sending.sendMsgAsync q.roleId q.message
        return { s with sending := sending, sent := Function.update s.sent j true }
  | .reply j message => do
    let (_, d) ← s.recvMsgDispatcher.dispatch ⟨message.base.roleId, message⟩
    return { s with recvMsgDispatcher := d
                    replies := Function.update s.replies j (some message) }

/-- The server answers requests that were sent to it, each at most once, with the request's id and
role id. -/
def FromServer (s : SyncClient) : SyncEvent → Prop
  | .reply j message => ∃ q, s.requests[j]? = some q ∧ s.sent j = true ∧
      (s.sending.connMap q.roleId).isSome = true ∧ s.replies j = none ∧
      message.base.messageUniqueId = q.uniqueId ∧ message.base.roleId = q.message.base.roleId
  | _ => True

/-- The `j`-th request is `q`, and not answered. -/
def Outstanding (s : SyncClient) (j : Nat) (q : SyncRequest) : Prop :=
  s.requests[j]? = some q ∧ s.replies j = none

/-- **Requests get their own replies.** -/
structure OwnReplies (s : SyncClient) : Prop where
  issued : ∀ (j : Nat) (q : SyncRequest), s.requests[j]? = some q → q.uniqueId ≠ asyncMessageUniqueId
  distinct : ∀ i j p q, s.Outstanding i p → s.Outstanding j q → i ≠ j → p.uniqueId ≠ q.uniqueId
  own : ∀ (j : Nat) (q : SyncRequest) (message : Message), s.requests[j]? = some q →
    s.recvMsgDispatcher.results q.future = some message → s.replies j = some message

/-- The condition on an event and the state it finds. -/
def Unambiguous (s : SyncClient) : SyncEvent → Prop
  | .request roleId _ => s.calls roleId + 1 < 2 ^ 32 ∧
      ∀ j q, s.Outstanding j q → q.roleId ≠ roleId → q.ordinal ≠ s.calls roleId + 1
  | _ => True

/-- The ids are the ordinals, and have not wrapped. -/
structure Numbered (s : SyncClient) : Prop where
  counter : ∀ roleId, s.recvMsgDispatcher.messageIdMap roleId = BitVec.ofNat 32 (s.calls roleId)
  calls_lt : ∀ roleId, s.calls roleId < 2 ^ 32
  ordinal : ∀ (j : Nat) (q : SyncRequest), s.requests[j]? = some q →
    0 < q.ordinal ∧ q.ordinal ≤ s.calls q.roleId
  uniqueId : ∀ (j : Nat) (q : SyncRequest), s.requests[j]? = some q →
    q.uniqueId = BitVec.ofNat 32 q.ordinal

/-- Each request has a future of its own, which holds its reply. -/
structure Futures (s : SyncClient) : Prop where
  future_lt : ∀ (j : Nat) (q : SyncRequest), s.requests[j]? = some q →
    q.future < s.recvMsgDispatcher.promises
  future_inj : ∀ (i j : Nat) (p q : SyncRequest), s.requests[i]? = some p → s.requests[j]? = some q →
    p.future = q.future → i = j
  result : ∀ (j : Nat) (q : SyncRequest), s.requests[j]? = some q →
    s.recvMsgDispatcher.results q.future = s.replies j
  fresh : ∀ i, s.recvMsgDispatcher.promises ≤ i → s.recvMsgDispatcher.results i = none
  noReply : ∀ j, s.requests.length ≤ j → s.replies j = none

/-- What every event keeps, as long as requests are unambiguous. -/
structure Inv (s : SyncClient) : Prop extends Numbered s, Futures s where
  sync : s.recvMsgDispatcher.enableSync = true
  /-- An outstanding request has its promise, and there are no others. -/
  promise : ∀ j q, s.Outstanding j q →
    s.recvMsgDispatcher.messagePromise q.uniqueId = some ⟨q.future, true⟩
  noPromise : ∀ id, (∀ j q, s.Outstanding j q → q.uniqueId ≠ id) →
    s.recvMsgDispatcher.messagePromise id = none

/-! ## Ids -/

theorem ofNat_inj_of_lt {m n : Nat} (hm : m < 2 ^ 32) (hn : n < 2 ^ 32)
    (h : BitVec.ofNat 32 m = BitVec.ofNat 32 n) : m = n := by
  have := congrArg BitVec.toNat h
  rwa [BitVec.toNat_ofNat, BitVec.toNat_ofNat, Nat.mod_eq_of_lt hm, Nat.mod_eq_of_lt hn] at this

theorem getElem?_snoc {α : Type} {xs : List α} {x y : α} {j : Nat} (h : (xs ++ [x])[j]? = some y) :
    xs[j]? = some y ∨ (j = xs.length ∧ y = x) := by
  rcases Nat.lt_or_ge j xs.length with hj | hj
  · exact .inl (by rwa [List.getElem?_append_left hj] at h)
  · rw [List.getElem?_append_right hj] at h
    have hj' : j - xs.length = 0 := by
      have := (List.getElem?_eq_some_iff.mp h).1
      simp only [List.length_singleton] at this
      omega
    rw [hj'] at h
    exact .inr ⟨by omega, (Option.some.inj h).symm⟩

section Steps

variable {s s' : SyncClient}

theorem ordinal_lt (h : s.Inv) {j : Nat} {q : SyncRequest} (hq : s.requests[j]? = some q) :
    q.ordinal < 2 ^ 32 := Nat.lt_of_le_of_lt (h.ordinal j q hq).2 (h.calls_lt q.roleId)

theorem nextId (h : s.Inv) (roleId : RoleId) :
    s.recvMsgDispatcher.messageIdMap roleId + 1 = BitVec.ofNat 32 (s.calls roleId + 1) := by
  rw [h.counter, BitVec.ofNat_add]
  rfl

/-- **The invariant gives the property.** -/
theorem ownReplies_of_inv (h : s.Inv) : s.OwnReplies := by
  refine ⟨fun j q hq hzero => ?_, fun i j p q hp hq hij hid => hij ?_, fun j q message hq hm => ?_⟩
  · rw [h.uniqueId j q hq, asyncMessageUniqueId] at hzero
    have hzero' : q.ordinal = 0 := ofNat_inj_of_lt (ordinal_lt h hq) (by decide) hzero
    exact Nat.ne_of_gt (h.ordinal j q hq).1 hzero'
  · have hpromise := h.promise i p hp
    rw [hid, h.promise j q hq] at hpromise
    refine h.future_inj i j p q hp.1 hq.1 ?_
    exact (congrArg Promise.shared (Option.some.inj hpromise)).symm
  · rw [← h.result j q hq, hm]

/-! ## A request -/

section Request

variable {roleId : RoleId} {message : Message}

/-- An unambiguous request takes an id that has no promise. -/
theorem noPromise_of_unambiguous (h : s.Inv) (hu : s.Unambiguous (.request roleId message)) :
    s.recvMsgDispatcher.messagePromise (s.recvMsgDispatcher.messageIdMap roleId + 1) = none := by
  refine h.noPromise _ fun j q hq hid => ?_
  rw [nextId h, h.uniqueId j q hq.1] at hid
  have hordinal := ofNat_inj_of_lt (ordinal_lt h hq.1) hu.1 hid
  by_cases hrole : q.roleId = roleId
  · have := (h.ordinal j q hq.1).2
    rw [hrole] at this
    omega
  · exact hu.2 j q hq hrole hordinal

/-- The state after it. -/
def requested (s : SyncClient) (roleId : RoleId) (message : Message) : SyncClient :=
  { s with
    recvMsgDispatcher := s.recvMsgDispatcher.promised roleId
    requests := s.requests ++ [⟨roleId,
      message.withUniqueId (s.recvMsgDispatcher.messageIdMap roleId + 1),
      s.recvMsgDispatcher.promises, s.calls roleId + 1⟩] }

theorem step_request (h : s.Inv) (hu : s.Unambiguous (.request roleId message)) :
    s.step (.request roleId message) = .ok (s.requested roleId message) := by
  rw [step, MsgDispatcher.setSyncMessageId_of_none (noPromise_of_unambiguous h hu)]
  rfl

theorem calls_requested (r : RoleId) :
    (s.requested roleId message).calls r = s.calls r + if roleId = r then 1 else 0 := by
  simp only [calls, requested, List.countP_append, List.countP_singleton, decide_eq_true_eq]

/-- What is outstanding after it: what was, and itself. -/
theorem outstanding_requested (h : s.Inv) {j : Nat} {q : SyncRequest} :
    (s.requested roleId message).Outstanding j q ↔ s.Outstanding j q ∨ (j = s.requests.length ∧
      q = ⟨roleId, message.withUniqueId (s.recvMsgDispatcher.messageIdMap roleId + 1),
        s.recvMsgDispatcher.promises, s.calls roleId + 1⟩) := by
  constructor
  · rintro ⟨hq, hr⟩
    exact (getElem?_snoc hq).imp_left fun hq => ⟨hq, hr⟩
  · rintro (⟨hq, hr⟩ | ⟨rfl, rfl⟩)
    · exact ⟨(List.getElem?_append_left (List.getElem?_eq_some_iff.mp hq).1).trans hq, hr⟩
    · exact ⟨List.getElem?_concat_length, h.noReply _ (Nat.le_refl _)⟩

theorem numbered_requested (h : s.Inv) (hlt : s.calls roleId + 1 < 2 ^ 32) :
    (s.requested roleId message).Numbered := by
  have hcalls := @calls_requested s roleId message
  refine ⟨fun r => ?_, fun r => ?_, fun j q hq => ?_, fun j q hq => ?_⟩
  · rw [hcalls]
    by_cases hr : roleId = r
    · subst hr
      rw [if_pos rfl]
      exact (Function.update_self ..).trans (nextId h roleId)
    · rw [if_neg hr]
      exact (Function.update_of_ne (Ne.symm hr) ..).trans (h.counter r)
  · rw [hcalls]
    by_cases hr : roleId = r
    · subst hr
      rw [if_pos rfl]
      exact hlt
    · rw [if_neg hr]
      exact h.calls_lt r
  · rw [hcalls]
    rcases getElem?_snoc hq with hq | ⟨-, rfl⟩
    · have := h.ordinal j q hq
      exact ⟨this.1, Nat.le_trans this.2 (Nat.le_add_right ..)⟩
    · rw [if_pos rfl]
      exact ⟨Nat.succ_pos _, Nat.le_refl _⟩
  · rcases getElem?_snoc hq with hq | ⟨-, rfl⟩
    · exact h.uniqueId j q hq
    · exact (MsgDispatcher.messageUniqueId_withUniqueId ..).trans (nextId h roleId)

theorem futures_requested (h : s.Inv) : (s.requested roleId message).Futures := by
  refine ⟨fun j q hq => ?_, fun i j p q hp hq hf => ?_, fun j q hq => ?_,
    fun i hi => h.fresh i (Nat.le_of_succ_le hi), fun j hj => ?_⟩
  · rcases getElem?_snoc hq with hq | ⟨-, rfl⟩
    · exact Nat.lt_succ_of_lt (h.future_lt j q hq)
    · exact Nat.lt_succ_self _
  · rcases getElem?_snoc hp with hp | ⟨hi, rfl⟩
    · rcases getElem?_snoc hq with hq | ⟨hj, rfl⟩
      · exact h.future_inj i j p q hp hq hf
      · exact absurd hf (Nat.ne_of_lt (h.future_lt i p hp))
    · rcases getElem?_snoc hq with hq | ⟨hj, rfl⟩
      · exact absurd hf.symm (Nat.ne_of_lt (h.future_lt j q hq))
      · rw [hi, hj]
  · rcases getElem?_snoc hq with hq | ⟨rfl, rfl⟩
    · exact h.result j q hq
    · exact (h.fresh _ (Nat.le_refl _)).trans (h.noReply _ (Nat.le_refl _)).symm
  · rw [requested, List.length_append] at hj
    exact h.noReply j (Nat.le_trans (Nat.le_add_right ..) hj)

theorem inv_requested (h : s.Inv) (hu : s.Unambiguous (.request roleId message)) :
    (s.requested roleId message).Inv := by
  have hnone := noPromise_of_unambiguous h hu
  refine { numbered_requested h hu.1, futures_requested h with sync := h.sync, promise := ?promise,
                                                               noPromise := ?noPromise }
  case promise =>
    intro j q hq
    rcases (outstanding_requested h).mp hq with hq | ⟨-, rfl⟩
    · have hne : q.uniqueId ≠ s.recvMsgDispatcher.messageIdMap roleId + 1 := fun hid => by
        have := h.promise j q hq
        rw [hid, hnone] at this
        cases this
      exact (Function.update_of_ne hne ..).trans (h.promise j q hq)
    · rw [SyncRequest.uniqueId, MsgDispatcher.messageUniqueId_withUniqueId]
      exact Function.update_self ..
  case noPromise =>
    intro id hid
    have hne : s.recvMsgDispatcher.messageIdMap roleId + 1 ≠ id := by
      have := hid _ _ ((outstanding_requested h).mpr (.inr ⟨rfl, rfl⟩))
      rwa [SyncRequest.uniqueId, MsgDispatcher.messageUniqueId_withUniqueId] at this
    refine (Function.update_of_ne (Ne.symm hne) ..).trans (h.noPromise id fun j q hq => ?_)
    exact hid j q ((outstanding_requested h).mpr (.inl hq))

/-- **An ambiguous request** is issued the id 0, or its `get_future` throws. -/
theorem unambiguous_of_step (h : s.Inv) (hs : s.step (.request roleId message) = .ok s')
    (hp : s'.OwnReplies) : s.Unambiguous (.request roleId message) := by
  obtain ⟨⟨future, message', d⟩, hset, hs⟩ := bind_eq_ok.mp hs
  refine ⟨?_, fun j q hq hrole hordinal => ?_⟩
  · -- the counter would have wrapped to 0
    by_contra hlt
    have hcalls : s.calls roleId + 1 = 2 ^ 32 := by
      have := h.calls_lt roleId
      omega
    have hid := MsgDispatcher.setSyncMessageId_uniqueId hset
    rw [nextId h, hcalls] at hid
    cases hs
    exact hp.issued s.requests.length _ List.getElem?_concat_length hid
  · -- the promise of the other role's request has given its future away
    have hpromise := h.promise j q hq
    rw [h.uniqueId j q hq.1, hordinal, ← nextId h] at hpromise
    rw [MsgDispatcher.setSyncMessageId_of_retrieved hpromise rfl] at hset
    cases hset

end Request

/-! ## A reply -/

section Reply

variable {j : Nat} {message : Message}

/-- The state after the reply to `q`. -/
def answered (s : SyncClient) (j : Nat) (q : SyncRequest) (message : Message) : SyncClient :=
  { s with
    recvMsgDispatcher := s.recvMsgDispatcher.fulfilled ⟨q.future, true⟩ message
    replies := Function.update s.replies j (some message) }

/-- What is outstanding after it: what was, without `q`. -/
theorem outstanding_answered {q p : SyncRequest} {i : Nat} :
    (s.answered j q message).Outstanding i p ↔ s.Outstanding i p ∧ i ≠ j := by
  constructor
  · rintro ⟨hp, hr⟩
    have hij : i ≠ j := by
      rintro rfl
      cases (Function.update_self (f := s.replies) ..).symm.trans hr
    exact ⟨⟨hp, (Function.update_of_ne (f := s.replies) hij ..).symm.trans hr⟩, hij⟩
  · rintro ⟨⟨hp, hr⟩, hij⟩
    exact ⟨hp, (Function.update_of_ne hij ..).trans hr⟩

theorem step_reply (h : s.Inv) {q : SyncRequest} (hq : s.Outstanding j q)
    (hid : message.base.messageUniqueId = q.uniqueId) :
    s.step (.reply j message) = .ok (s.answered j q message) := by
  have hne : message.base.messageUniqueId ≠ asyncMessageUniqueId := by
    rw [hid]
    exact (ownReplies_of_inv h).issued j q hq.1
  have hpromise := h.promise j q hq
  rw [← hid] at hpromise
  have hresult : s.recvMsgDispatcher.results q.future = none := (h.result j q hq.1).trans hq.2
  rw [step, MsgDispatcher.dispatch_of_promise h.sync hne hpromise hresult]
  rfl

theorem futures_answered (h : s.Inv) {q : SyncRequest} (hq : s.Outstanding j q) :
    (s.answered j q message).Futures := by
  refine ⟨h.future_lt, h.future_inj, fun i p hp => ?_, fun i hi => ?_, fun i hi => ?_⟩
  · by_cases hij : i = j
    · subst hij
      obtain rfl : p = q := Option.some.inj (hp.symm.trans hq.1)
      exact (Function.update_self ..).trans (Function.update_self (f := s.replies) ..).symm
    · have hne : p.future ≠ q.future := fun hf => hij (h.future_inj i j p q hp hq.1 hf)
      exact ((Function.update_of_ne hne ..).trans (h.result i p hp)).trans
        (Function.update_of_ne hij ..).symm
  · have hne : i ≠ q.future := Nat.ne_of_gt (Nat.lt_of_lt_of_le (h.future_lt j q hq.1) hi)
    exact (Function.update_of_ne hne ..).trans (h.fresh i hi)
  · have hne : i ≠ j := Nat.ne_of_gt (Nat.lt_of_lt_of_le (List.getElem?_eq_some_iff.mp hq.1).1 hi)
    exact (Function.update_of_ne hne ..).trans (h.noReply i hi)

theorem inv_answered (h : s.Inv) {q : SyncRequest} (hq : s.Outstanding j q)
    (hid : message.base.messageUniqueId = q.uniqueId) : (s.answered j q message).Inv := by
  refine { futures_answered h hq with counter := h.counter, calls_lt := h.calls_lt,
                                      ordinal := h.ordinal, uniqueId := h.uniqueId, sync := h.sync,
                                      promise := ?promise, noPromise := ?noPromise }
  case promise =>
    intro i p hp
    obtain ⟨hp, hij⟩ := outstanding_answered.mp hp
    have hne : p.uniqueId ≠ message.base.messageUniqueId := by
      rw [hid]
      exact (ownReplies_of_inv h).distinct i j p q hp hq hij
    exact (Function.update_of_ne hne ..).trans (h.promise i p hp)
  case noPromise =>
    intro id hother
    by_cases he : id = message.base.messageUniqueId
    · subst he
      exact Function.update_self ..
    · refine (Function.update_of_ne he ..).trans (h.noPromise id fun i p hp hpid => ?_)
      by_cases hij : i = j
      · subst hij
        obtain rfl : p = q := Option.some.inj (hp.1.symm.trans hq.1)
        exact he (hpid.symm.trans hid.symm)
      · exact hother i p (outstanding_answered.mpr ⟨hp, hij⟩) hpid

end Reply

/-- The second half of a call leaves the dispatcher, the requests and the connections alone. -/
theorem step_send {j : Nat} {q : SyncRequest} (hq : s.requests[j]? = some q) (hs : s.sent j = false) :
    ∃ sending : Sending, sending.connMap = s.sending.connMap ∧ s.step (.send j) =
      .ok { s with sending := sending, sent := Function.update s.sent j true } := by
  obtain ⟨b, -, -, -, hsend⟩ := Sending.send_ok (s := s.sending) q.roleId q.message
  obtain ⟨sending, hsend, hconn⟩ : ∃ t, s.sending.sendMsgAsync q.roleId q.message = .ok t ∧
      t.connMap = s.sending.connMap := ⟨_, hsend, by split <;> rfl⟩
  refine ⟨sending, hconn, ?_⟩
  simp only [step, hq, hs, Bool.false_eq_true, if_false, hsend]
  rfl

theorem of_step_send {j : Nat} {q : SyncRequest} (h : s.step (.send j) = .ok s')
    (hq : s.requests[j]? = some q) (hs : s.sent j = false) :
    ∃ sending : Sending, sending.connMap = s.sending.connMap ∧
      s' = { s with sending := sending, sent := Function.update s.sent j true } := by
  obtain ⟨sending, hconn, hsend⟩ := step_send hq hs
  exact ⟨sending, hconn, Except.ok.inj (h.symm.trans hsend)⟩

theorem inv_send (h : s.Inv) (j : Nat) : ∃ s', s.step (.send j) = .ok s' ∧ s'.Inv := by
  cases hq : s.requests[j]? with
  | none => exact ⟨s, by rw [step, hq]; rfl, h⟩
  | some q =>
    cases hs : s.sent j with
    | true => exact ⟨s, by simp only [step, hq, hs, if_true]; rfl, h⟩
    | false =>
      obtain ⟨sending, -, hstep⟩ := step_send hq hs
      exact ⟨_, hstep, ⟨⟨h.counter, h.calls_lt, h.ordinal, h.uniqueId⟩,
        ⟨h.future_lt, h.future_inj, h.result, h.fresh, h.noReply⟩, h.sync, h.promise, h.noPromise⟩⟩

/-- **One event** goes well exactly when it is unambiguous. -/
theorem step_iff (h : s.Inv) {e : SyncEvent} (hf : s.FromServer e) :
    (∃ s', s.step e = .ok s' ∧ s'.OwnReplies) ↔ s.Unambiguous e := by
  cases e with
  | request roleId message =>
    constructor
    · rintro ⟨s', hs, hp⟩
      exact unambiguous_of_step h hs hp
    · exact fun hu => ⟨_, step_request h hu, ownReplies_of_inv (inv_requested h hu)⟩
  | send j =>
    obtain ⟨s', hs, h'⟩ := inv_send h j
    exact iff_of_true ⟨s', hs, ownReplies_of_inv h'⟩ trivial
  | reply j message =>
    obtain ⟨q, hq, -, -, hr, hid, -⟩ := hf
    exact iff_of_true ⟨_, step_reply h ⟨hq, hr⟩ hid, ownReplies_of_inv (inv_answered h ⟨hq, hr⟩ hid)⟩ trivial

theorem inv_step (h : s.Inv) {e : SyncEvent} (hf : s.FromServer e) (hu : s.Unambiguous e)
    (hs : s.step e = .ok s') : s'.Inv := by
  cases e with
  | request roleId message =>
    rw [step_request h hu] at hs
    cases hs
    exact inv_requested h hu
  | send j =>
    obtain ⟨t, ht, h'⟩ := inv_send h j
    rw [ht] at hs
    cases hs
    exact h'
  | reply j message =>
    obtain ⟨q, hq, -, -, hr, hid, -⟩ := hf
    rw [step_reply h ⟨hq, hr⟩ hid] at hs
    cases hs
    exact inv_answered h ⟨hq, hr⟩ hid

end Steps

/-- The dispatcher starts with no ids issued, no promises and no results. -/
theorem recvMsgDispatcher_fresh {d : MsgDispatcher} (hd : GameClient.recvMsgDispatcher = .ok d) :
    d.enableSync = true ∧ (∀ roleId, d.messageIdMap roleId = 0) ∧ (∀ id, d.messagePromise id = none) ∧
      ∀ i, d.results i = none := by
  cases hd
  exact ⟨rfl, fun _ => rfl, fun _ => rfl, fun _ => rfl⟩

theorem inv_new {d : MsgDispatcher} (hd : GameClient.recvMsgDispatcher = .ok d)
    (connMap : RoleId → Option ConnId) : (new d connMap).Inv := by
  obtain ⟨hsync, hids, hpromises, hresults⟩ := recvMsgDispatcher_fresh hd
  refine ⟨⟨hids, fun _ => Nat.two_pow_pos 32, ?_, ?_⟩, ⟨?_, ?_, ?_, fun i _ => hresults i, fun _ _ => rfl⟩,
    hsync, ?_, fun id _ => hpromises id⟩
  · exact fun _ _ h => (by cases h)
  · exact fun _ _ h => (by cases h)
  · exact fun _ _ h => (by cases h)
  · exact fun _ _ _ _ h => (by cases h)
  · exact fun _ _ h => (by cases h)
  · exact fun _ _ h => (by cases h.1)

/-- **Synchronous requests get their own replies** in a run exactly when each of its requests is
unambiguous. -/
theorem own_replies_iff {d : MsgDispatcher} (hd : GameClient.recvMsgDispatcher = .ok d)
    (connMap : RoleId → Option ConnId) {events : List SyncEvent}
    (hserver : EachStep step FromServer (new d connMap) events) :
    Safe step OwnReplies (new d connMap) events ↔ EachStep step Unambiguous (new d connMap) events :=
  safe_iff_eachStep (I := Inv) (fun _ _ _ h _ hf hu hs => inv_step h hf hu hs)
    (fun _ _ h _ hf => step_iff h hf) (inv_new hd connMap) (ownReplies_of_inv (inv_new hd connMap)) hserver

/-- The message `EnterRoom` makes for a role. -/
def enterRoom (roleId : RoleId) (roomId : BitVec 32) : Message :=
  .enterRoom { EnterRoomMessage.new with roleId := roleId, roomId := roomId }

/-- Two roles, each on a connection of its own. -/
def twoConns (roleId : RoleId) : Option ConnId :=
  if roleId = 1 then some 0 else if roleId = 2 then some 1 else none

/-- Both roles enter a room at the same time. -/
def bothEnter : List SyncEvent := [.request 1 (enterRoom 1 9), .request 2 (enterRoom 2 9)]

/-- The first requests of two roles are both issued the id 1. -/
theorem bothEnter_collide : ∃ d, GameClient.recvMsgDispatcher = .ok d ∧
    EachStep step FromServer (new d twoConns) bothEnter ∧
    run step (new d twoConns) bothEnter = .error .futureAlreadyRetrieved ∧
    ¬ Safe step OwnReplies (new d twoConns) bothEnter := by
  refine ⟨_, rfl, ?_, rfl, fun h => ?_⟩
  · refine eachStep_cons.mpr ⟨trivial, fun _ _ => ?_⟩
    exact eachStep_cons.mpr ⟨trivial, fun _ _ => eachStep_nil⟩
  · obtain ⟨t, ht, -⟩ := h bothEnter (List.prefix_refl _)
    cases ht

/-- One role after the other. -/
def inTurn : List SyncEvent :=
  [.request 1 (enterRoom 1 9), .send 0, .reply 0 ((enterRoom 1 9).withUniqueId 1),
    .request 2 (enterRoom 2 9)]

theorem inTurn_own_replies : ∃ d, GameClient.recvMsgDispatcher = .ok d ∧
    Safe step OwnReplies (new d twoConns) inTurn := by
  refine ⟨_, rfl, (own_replies_iff rfl twoConns ?_).mpr ?_⟩
  · refine eachStep_cons.mpr ⟨trivial, ?_⟩
    rintro s₁ ⟨⟩
    refine eachStep_cons.mpr ⟨trivial, fun s₂ hs₂ => ?_⟩
    obtain ⟨sending, hconn, rfl⟩ := of_step_send hs₂ rfl rfl
    refine eachStep_cons.mpr ⟨⟨_, rfl, rfl, ?_, rfl, rfl, rfl⟩, fun _ _ => ?_⟩
    · rw [hconn]; rfl
    · exact eachStep_cons.mpr ⟨trivial, fun _ _ => eachStep_nil⟩
  · refine eachStep_cons.mpr ⟨⟨by decide, fun j q hq => (by cases hq.1)⟩, ?_⟩
    rintro s₁ ⟨⟩
    refine eachStep_cons.mpr ⟨trivial, fun s₂ hs₂ => ?_⟩
    obtain ⟨sending, -, rfl⟩ := of_step_send hs₂ rfl rfl
    refine eachStep_cons.mpr ⟨trivial, ?_⟩
    rintro s₃ ⟨⟩
    refine eachStep_cons.mpr ⟨⟨(by decide : 0 + 1 < 2 ^ 32), fun j q hq => ?_⟩, fun _ _ => eachStep_nil⟩
    cases j with
    | zero => exact absurd hq.2 (Option.some_ne_none _)
    | succ j => exact absurd hq.1.symm (Option.some_ne_none _)

end SyncClient

end GameNetwork
