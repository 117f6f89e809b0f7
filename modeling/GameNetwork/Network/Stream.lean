import GameNetwork.Network.TcpConnection

/-!
# A connection's byte stream

What a whole run of the receive loop means, whatever the pieces the stream
arrives in.

* `stream_fidelity`: on encoded messages, those whose frames have arrived are
  received, and nothing else.
* `segmentation_independent`: on any stream, the pieces do not matter as long
  as no frame begins behind bytes the decoder rejected.
* `never_wedged_iff`: the loop does not come to a full buffer that still needs
  more, exactly when no piece completes a buffer whose frame is larger than
  it. `wedged_deliver`: from such a buffer it never gets away.
-/

namespace GameNetwork

open Lib GameNetwork.Frame

/-! ## Encoded messages -/

section Fidelity

variable {msgs : List Message} {conn : GameConnection} {pieces : List (List Byte)}

/-- The frames of messages, each with what is handed on for it. -/
def framesOf (msgs : List Message) : List (List Byte × BaseMsgWithBuffer) :=
  msgs.map fun m => (m.frame, received m.frame)

theorem framesOf_bytes (msgs : List Message) :
    (framesOf msgs).flatMap Prod.fst = (msgs.map Message.frame).flatten := by
  rw [framesOf, List.flatMap_map, List.flatMap_def]

theorem isFrame_framesOf (hm : ∀ m ∈ msgs, m.AsConstructed) :
    ∀ x ∈ framesOf msgs, frameDecoder.IsFrame x.1 x.2 := by
  intro x hx
  obtain ⟨m, hmem, rfl⟩ := List.mem_map.mp hx
  exact isFrame_frame (hm m hmem)

/-- The frames are what encoding gives. -/
theorem eq_frames_of_encoded {fs : List (List Byte)}
    (hfs : List.Forall₂ (fun m f => Message.encoded m = .ok f) msgs fs) :
    fs = msgs.map Message.frame := by
  induction hfs with
  | nil => rfl
  | @cons m f _ _ h _ ih =>
    rw [encoded_eq] at h
    cases h
    rw [List.map_cons, ih]

/-- No delivery of a part of the stream faults. -/
theorem run_of_frames (hm : ∀ m ∈ msgs, m.AsConstructed)
    (hp : pieces.flatten <+: (msgs.map Message.frame).flatten)
    (hg : EachStep deliver Offered (Delivery.start conn) pieces) :
    ∃ d, run deliver (Delivery.start conn) pieces = .ok d := by
  induction pieces using List.reverseRecOn with
  | nil => exact ⟨_, rfl⟩
  | append_singleton pieces piece ih =>
    rw [List.flatten_append, List.flatten_singleton] at hp
    have hg₁ := hg.of_append
    obtain ⟨d, hd⟩ := ih ((List.prefix_append ..).trans hp) hg₁
    have hoffered : Offered d piece := hg pieces piece (List.prefix_refl _) d hd
    rw [← framesOf_bytes] at hp
    obtain ⟨bs, r, hdrain⟩ := (fed_of_run hg₁ hd).frames_drain (isFrame_framesOf hm) hp
    obtain ⟨d', hd', -⟩ := deliver_of_drain (ready_of_run hg₁ hd) hoffered hdrain
    exact ⟨d', (run_snoc_of_ok hd).trans hd'⟩

/-- **Fidelity.** However the concatenated encodings of messages arrive, no read faults; what was
handed on becomes, through `TransmitMessage`, the first `k` messages; and the bytes held are those
that arrived behind their frames, fewer than the next frame has. -/
theorem stream_fidelity {fs : List (List Byte)} (hm : ∀ m ∈ msgs, m.AsConstructed)
    (hfs : List.Forall₂ (fun m f => Message.encoded m = .ok f) msgs fs)
    (hp : pieces.flatten <+: fs.flatten)
    (hg : EachStep deliver Offered (Delivery.start conn) pieces) :
    ∃ d k, run deliver (Delivery.start conn) pieces = .ok d ∧ k ≤ msgs.length ∧
      (ConnCall.messages d.calls).map transmitMessage = (msgs.take k).map (fun m => .ok (some m)) ∧
      pieces.flatten = (fs.take k).flatten ++ d.held ∧
      (∀ f, fs[k]? = some f → d.held.length < f.length) ∧
      idxBegin ≤ d.receiver.buffer.readIdx ∧
      d.receiver.buffer.readIdx ≤ d.receiver.buffer.writeIdx ∧
      d.receiver.buffer.writeIdx ≤ d.receiver.buffer.bytes.length := by
  obtain rfl := eq_frames_of_encoded hfs
  obtain ⟨d, hd⟩ := run_of_frames hm hp hg
  have hready := ready_of_run hg hd
  rw [← framesOf_bytes] at hp
  obtain ⟨k, hout, hcut⟩ := (fed_of_run hg hd).frames (isFrame_framesOf hm) hp
  have hk : k ≤ msgs.length := by simpa [framesOf] using hcut.le
  refine ⟨d, k, hd, hk, ?_, ?_, ?_, hready.reserve, hready.valid.read_le_write,
    hready.valid.write_le_size⟩
  · rw [hout, framesOf, ← List.map_take, List.map_map, List.map_map]
    refine List.map_congr_left fun m hmem => ?_
    exact transmitMessage_frame (hm m (List.mem_of_mem_take hmem))
  · rw [hcut.split, framesOf, ← List.map_take, ← List.map_take]
    congr 1
    exact framesOf_bytes (msgs.take k)
  · intro f hf
    rw [List.getElem?_map] at hf
    obtain ⟨m, hmem, rfl⟩ := Option.map_eq_some_iff.mp hf
    exact hcut.short (m.frame, received m.frame) (by rw [framesOf, List.getElem?_map, hmem]; rfl)

/-- A ping as its constructor makes it. -/
def somePing : Message := .ping PingMessage.new

theorem somePing_asConstructed : somePing.AsConstructed := ⟨rfl, rfl⟩

/-- Two frames and what follows them, cut inside the length and inside the body of the second. -/
def cutPieces (t : List Byte) : List (List Byte) :=
  [pingOfFive.frame ++ moveOfFive.frame.take 2, (moveOfFive.frame.drop 2).take 22,
    moveOfFive.frame.drop 24 ++ t]

theorem offered_cutPieces {t : List Byte} (hle : t.length ≤ 1024) :
    EachStep deliver Offered (Delivery.start ⟨0, true⟩) (cutPieces t) := by
  have hlen : (cutPieces t).flatten.length = 58 + t.length := by
    simp only [cutPieces, List.flatten_cons, List.flatten_nil, List.length_append, List.length_nil,
      Nat.add_zero]
    rw [← Nat.add_assoc, ← Nat.add_assoc]
    rfl
  have hroom : (cutPieces t).flatten.length ≤ 4096 := by omega
  refine offered_of_length (fun piece hp => ?_) hroom
  simp only [cutPieces, List.mem_cons, List.not_mem_nil, or_false] at hp
  rcases hp with rfl | rfl | rfl
  · decide
  · decide
  · exact List.append_ne_nil_of_left_ne_nil (by decide) _

theorem cutPieces_delivered :
    ∃ d k, run deliver (Delivery.start ⟨0, true⟩) (cutPieces requestOfSix.frame) = .ok d ∧ k ≤ 3 ∧
      (ConnCall.messages d.calls).map transmitMessage =
        ([pingOfFive, moveOfFive, requestOfSix].take k).map (fun m => .ok (some m)) ∧
      (cutPieces requestOfSix.frame).flatten =
        ([pingOfFive.frame, moveOfFive.frame, requestOfSix.frame].take k).flatten ++ d.held ∧
      (∀ f, [pingOfFive.frame, moveOfFive.frame, requestOfSix.frame][k]? = some f →
        d.held.length < f.length) ∧
      idxBegin ≤ d.receiver.buffer.readIdx ∧
      d.receiver.buffer.readIdx ≤ d.receiver.buffer.writeIdx ∧
      d.receiver.buffer.writeIdx ≤ d.receiver.buffer.bytes.length :=
  stream_fidelity (by decide)
    (.cons (encoded_eq _) (.cons (encoded_eq _) (.cons (encoded_eq _) .nil)))
    (by decide) (offered_cutPieces (by decide))

end Fidelity

/-! ## Any stream -/

/-- **The pieces do not matter** on a stream in which no frame begins where the decoder stands
after a rejection. -/
theorem segmentation_independent {S : List Byte} (hS : frameDecoder.NoneAfterReject S)
    {conn : GameConnection} {ps qs : List (List Byte)} {d d' : Delivery} (hps : ps.flatten = S)
    (hqs : qs.flatten = S) (hgp : EachStep deliver Offered (Delivery.start conn) ps)
    (hgq : EachStep deliver Offered (Delivery.start conn) qs)
    (hp : run deliver (Delivery.start conn) ps = .ok d)
    (hq : run deliver (Delivery.start conn) qs = .ok d') :
    ConnCall.messages d.calls = ConnCall.messages d'.calls := by
  have h := fed_of_run hgp hp
  have h' := fed_of_run hgq hq
  rw [hps] at h
  rw [hqs] at h'
  exact h.unique hS h'

/-- A whole frame of a type that is out of range. -/
def refusedFrame : List Byte :=
  wire 17#32 ++ wire magicNumber ++ wire 0#32 ++ wire 0#32 ++ wire 0#8 ++ wire 7#32

theorem refusedFrame_rejected : Rejected refusedFrame 21 :=
  .type (by decide) (by decide) (by decide) (by decide) (by decide)

/-- A good frame behind a refused one: it is lost when both arrive together, and received when it
arrives later. -/
theorem segmentation_matters :
    [refusedFrame ++ somePing.frame].flatten = [refusedFrame, somePing.frame].flatten ∧
    EachStep deliver Offered (Delivery.start ⟨0, true⟩) [refusedFrame ++ somePing.frame] ∧
    EachStep deliver Offered (Delivery.start ⟨0, true⟩) [refusedFrame, somePing.frame] ∧
    ∃ d d', run deliver (Delivery.start ⟨0, true⟩) [refusedFrame ++ somePing.frame] = .ok d ∧
      run deliver (Delivery.start ⟨0, true⟩) [refusedFrame, somePing.frame] = .ok d' ∧
      ConnCall.messages d.calls = [] ∧
      ConnCall.messages d'.calls = [received somePing.frame] := by
  have hsingle : EachStep deliver Offered (Delivery.start ⟨0, true⟩) [refusedFrame ++ somePing.frame] :=
    offered_of_length (by decide) (by decide)
  have hpair : EachStep deliver Offered (Delivery.start ⟨0, true⟩) [refusedFrame, somePing.frame] :=
    offered_of_length (by decide) (by decide)
  have hping := isFrame_frame somePing_asConstructed
  have hrefused : frameDecoder.verdict refusedFrame = .reject 21 :=
    frameVerdict_reject.mpr refusedFrame_rejected
  -- together: the loop ends at the refused frame, and no more bytes come
  obtain ⟨d, hd, hmsgs, -⟩ := deliver_first (hsingle [] _ (List.prefix_refl _) _ rfl)
    (Decoder.drain_reject (frameDecoder.reject_append hrefused somePing.frame))
  -- apart: the second piece finds the loop behind the refused frame
  obtain ⟨d₁, hd₁, hmsgs₁, hheld₁, hready₁⟩ := deliver_first
    (hpair [] _ (List.prefix_append [refusedFrame] _) _ rfl) (Decoder.drain_reject hrefused)
  have hempty : d₁.held = [] := hheld₁
  have hrun₁ : run deliver (Delivery.start ⟨0, true⟩) [refusedFrame] = .ok d₁ :=
    run_cons_eq_ok.mpr ⟨d₁, hd₁, rfl⟩
  have hdrain : frameDecoder.drain (d₁.held ++ somePing.frame) =
      some ([received somePing.frame], []) := by
    rw [hempty, List.nil_append, Decoder.drain_accept hping.whole, List.drop_length,
      Decoder.drain_more rfl]
    rfl
  obtain ⟨d', hd', hmsgs', -⟩ := deliver_of_drain hready₁
    (hpair [refusedFrame] _ (List.prefix_refl _) d₁ hrun₁) hdrain
  refine ⟨by simp, hsingle, hpair, d, d', run_cons_eq_ok.mpr ⟨d, hd, rfl⟩,
    run_cons_eq_ok.mpr ⟨d₁, hd₁, run_cons_eq_ok.mpr ⟨d', hd', rfl⟩⟩, hmsgs, ?_⟩
  rw [hmsgs', hmsgs₁]
  rfl

/-- Two frames are received however they arrive, and the refused one behind them is not. -/
theorem cutPieces_segmentation :
    ∃ d d', run deliver (Delivery.start ⟨0, true⟩)
        [pingOfFive.frame ++ (moveOfFive.frame ++ refusedFrame)] = .ok d ∧
      run deliver (Delivery.start ⟨0, true⟩) (cutPieces refusedFrame) = .ok d' ∧
      ConnCall.messages d.calls = [received pingOfFive.frame, received moveOfFive.frame] ∧
      ConnCall.messages d.calls = ConnCall.messages d'.calls := by
  have hping := isFrame_frame (m := pingOfFive) ⟨rfl, rfl⟩
  have hmove := isFrame_frame (m := moveOfFive) ⟨rfl, rfl⟩
  have hrefused : frameDecoder.verdict refusedFrame = .reject refusedFrame.length :=
    frameVerdict_reject.mpr refusedFrame_rejected
  have hstream : frameDecoder.NoneAfterReject (pingOfFive.frame ++ (moveOfFive.frame ++ refusedFrame)) := by
    refine .of_accept (frameDecoder.accept_append hping.whole _) ?_
    rw [List.drop_left]
    refine .of_accept (frameDecoder.accept_append hmove.whole _) ?_
    rw [List.drop_left]
    exact Decoder.noneAfterReject_of_reject hrefused
  have hsingle : EachStep deliver Offered (Delivery.start ⟨0, true⟩)
      [pingOfFive.frame ++ (moveOfFive.frame ++ refusedFrame)] := offered_of_length (by decide) (by decide)
  have hcut := offered_cutPieces (t := refusedFrame) (by decide)
  -- what a drain gives of the end of the stream, and of all of it
  have hend : frameDecoder.drain (moveOfFive.frame ++ refusedFrame) = some ([received moveOfFive.frame], []) := by
    rw [Decoder.drain_accept (frameDecoder.accept_append hmove.whole _), List.drop_left,
      Decoder.drain_reject hrefused, List.drop_length]
    rfl
  have hall : frameDecoder.drain (pingOfFive.frame ++ (moveOfFive.frame ++ refusedFrame)) =
      some ([received pingOfFive.frame, received moveOfFive.frame], []) := by
    rw [Decoder.drain_accept (frameDecoder.accept_append hping.whole _), List.drop_left, hend]
    rfl
  obtain ⟨d, hd, hmsgs, -⟩ := deliver_first (hsingle [] _ (List.prefix_refl _) _ rfl) hall
  -- the three pieces
  have hfirst : frameDecoder.drain (pingOfFive.frame ++ moveOfFive.frame.take 2) =
      some ([received pingOfFive.frame], moveOfFive.frame.take 2) := by
    rw [Decoder.drain_accept (frameDecoder.accept_append hping.whole _), List.drop_left,
      Decoder.drain_more (by rfl)]
    rfl
  obtain ⟨d₁, hd₁, -, hheld₁, hready₁⟩ := deliver_first (hcut [] _ ⟨_, rfl⟩ _ rfl) hfirst
  have hrun₁ : run deliver (Delivery.start ⟨0, true⟩) [pingOfFive.frame ++ moveOfFive.frame.take 2] =
    .ok d₁ := run_cons_eq_ok.mpr ⟨d₁, hd₁, rfl⟩
  have hsecond : frameDecoder.drain (d₁.held ++ (moveOfFive.frame.drop 2).take 22) =
      some ([], moveOfFive.frame.take 24) := by
    rw [hheld₁]
    exact Decoder.drain_more (by rfl)
  obtain ⟨d₂, hd₂, -, hheld₂, hready₂⟩ := deliver_of_drain hready₁ (hcut [_] _ ⟨_, rfl⟩ d₁ hrun₁) hsecond
  have hrun₂ := (run_snoc_of_ok hrun₁).trans hd₂
  obtain ⟨d₃, hd₃, -⟩ := deliver_of_drain hready₂ (hcut _ _ (List.prefix_refl _) d₂ hrun₂)
    (by rw [hheld₂]; exact hend)
  have hrun : run deliver (Delivery.start ⟨0, true⟩)
    [pingOfFive.frame ++ (moveOfFive.frame ++ refusedFrame)] = .ok d := run_cons_eq_ok.mpr ⟨d, hd, rfl⟩
  have hrun₃ := (run_snoc_of_ok hrun₂).trans hd₃
  exact ⟨d, d₃, hrun, hrun₃, hmsgs,
    segmentation_independent hstream (by simp) (by decide) hsingle hcut hrun hrun₃⟩

/-! ## A full buffer -/

/-- The buffer is full and compacted, and the decoder answers that it needs more. -/
def Wedged (d : Delivery) : Prop :=
  d.receiver.buffer.readIdx = idxBegin ∧
  d.receiver.buffer.writeIdx = d.receiver.buffer.bytes.length ∧
  ∃ r, BaseMessage.new.decodeMessageHeader d.receiver.buffer = .ok r ∧ r.ok = true ∧ r.length = 0

/-- As many bytes as the buffer has room for, and a frame of one to four more at their front. -/
def Overfull (s : List Byte) : Prop :=
  s.length = defaultBufferSize ∧ 4093 ≤ (packSize s).toNat ∧ (packSize s).toNat ≤ 4096

instance (s : List Byte) : Decidable (Overfull s) := inferInstanceAs (Decidable (_ ∧ _))

theorem verdict_of_overfull {s : List Byte} (h : Overfull s) : frameVerdict s = .more := by
  obtain ⟨h1, h2, h3⟩ := h
  rw [frameVerdict, if_neg (by rw [h1]; decide), if_neg (by omega),
    if_pos (by rw [h1]; change 4096 < _; omega)]

/-- What a wedge is, read off the bytes held. -/
theorem wedged_iff {d : Delivery} (hs : d.receiver.Ready) : Wedged d ↔ Overfull d.held := by
  have hdecode := decodeMessageHeader_eq hs.valid BaseMessage.new (s := d.held) rfl
  have hlen : d.held.length = d.receiver.buffer.writeIdx - d.receiver.buffer.readIdx :=
    Buffer.length_readable hs.valid
  have hsize : d.receiver.buffer.bytes.length = 4104 := hs.size
  constructor
  · rintro ⟨hread, hwrite, r, hr, hok, hmore⟩
    have hfull : d.held.length = 4096 := by rw [hlen, hread, hwrite, hsize]; rfl
    rw [hdecode] at hr
    refine ⟨hfull, ?_, ?_⟩ <;> by_contra hsmall
    · -- the frame is whole, so the decoder does not ask for more
      rw [if_neg (by omega), if_neg (by omega), if_neg (by omega), if_neg (by omega)] at hr
      split at hr
      · cases hr; cases hok
      rw [if_neg (by omega)] at hr
      split at hr
      · cases hr; cases hok
      · cases hr; cases hmore
    · rw [if_neg (by omega), if_pos (by omega)] at hr
      cases hr; cases hok
  · rintro ⟨hfull, hlow, hhigh⟩
    change d.held.length = 4096 at hfull
    have hreserve : 8 ≤ d.receiver.buffer.readIdx := hs.reserve
    have hwrite := hs.valid.write_le_size
    rw [if_neg (by omega), if_neg (by omega), if_pos (by omega)] at hdecode
    refine ⟨?_, by omega, _, hdecode, rfl, rfl⟩
    show _ = 8
    omega

/-- When a piece wedges the loop. -/
theorem wedged_deliver_iff {d : Delivery} {piece : List Byte} (hs : d.receiver.Ready)
    (hp : Offered d piece) :
    (∀ d', deliver d piece = .ok d' → ¬ Wedged d') ↔ ¬ Overfull (d.held ++ piece) := by
  constructor
  · intro h hover
    obtain ⟨d', hd', -, hheld, hready⟩ :=
      deliver_of_drain hs hp (Decoder.drain_more (verdict_of_overfull hover))
    exact h d' hd' ((wedged_iff hready).mpr (hheld ▸ hover))
  · intro hover d' hd' hwedged
    obtain ⟨bs, hdrain, -, hready, -⟩ := deliver_ok hs hp hd'
    have hover' := (wedged_iff hready).mp hwedged
    -- a buffer that is full afterwards has had nothing read from it
    have hsuffix := (Decoder.stands_of_drain hdrain).suffix
    have hroom := (Receiver.ready_arrived hs hp.length_le).length_le
    simp only [Receiver.readable_arrived hs hp.length_le] at hroom
    have heq : d'.held = d.held ++ piece :=
      hsuffix.eq_of_length_le (by rw [hover'.1]; exact hroom)
    exact hover (heq ▸ hover')

/-- **A wedged loop stays wedged**: every read completes at once with nothing. -/
theorem wedged_deliver {d : Delivery} {piece : List Byte} (hs : d.receiver.Ready) (hw : Wedged d)
    (hp : Offered d piece) : piece = [] ∧ ∃ d', deliver d piece = .ok d' ∧ Wedged d' ∧
      ConnCall.messages d'.calls = ConnCall.messages d.calls := by
  have hover := (wedged_iff hs).mp hw
  have hempty : piece = [] := by
    have hroom : d.receiver.buffer.writableSize = 0 := by
      rw [Buffer.writableSize_eq hs.valid, hw.2.1, Nat.sub_self]
    have hlen := hp.length_le
    exact List.length_eq_zero_iff.mp (by omega)
  subst hempty
  obtain ⟨d', hd', hmsgs, hheld, hready⟩ := deliver_of_drain hs hp
    (Decoder.drain_more (verdict_of_overfull ((List.append_nil d.held).symm ▸ hover)))
  rw [List.append_nil] at hheld
  exact ⟨rfl, d', hd', (wedged_iff hready).mpr (hheld ▸ hover), by rw [hmsgs, List.append_nil]⟩

/-- **The loop is never wedged exactly when no piece completes an overfull buffer.** -/
theorem never_wedged_iff {conn : GameConnection} {pieces : List (List Byte)}
    (hg : EachStep deliver Offered (Delivery.start conn) pieces) :
    Always deliver (fun d => ¬ Wedged d) (Delivery.start conn) pieces ↔
      EachStep deliver (fun d piece => ¬ Overfull (d.held ++ piece)) (Delivery.start conn) pieces := by
  refine always_iff_eachStep (I := fun d : Delivery => d.receiver.Ready) ?_ ?_
    (ready_start conn) ?_ hg
  · intro d piece d' hs _ hp _ hd
    obtain ⟨-, -, -, hready, -⟩ := deliver_ok hs hp hd
    exact hready
  · exact fun d piece hs _ hp => wedged_deliver_iff hs hp
  · rw [wedged_iff (ready_start conn)]
    intro h
    have := h.1
    rw [held_start] at this
    cases this

/-- **No wedge on a stream without oversized frames**: wherever the decoder can stand, the length
is over the maximum or leaves room for its own four bytes. -/
theorem never_wedged_of_stream {S : List Byte} (hS : ∀ u, frameDecoder.Stands S u →
      (packSize u).toNat < 4093 ∨ 4096 < (packSize u).toNat)
    {conn : GameConnection} {pieces : List (List Byte)}
    (hg : EachStep deliver Offered (Delivery.start conn) pieces) (hp : pieces.flatten <+: S) :
    Always deliver (fun d => ¬ Wedged d) (Delivery.start conn) pieces := by
  intro ps hps d hd hwedged
  obtain ⟨qs, rfl⟩ := hps
  obtain ⟨x, rfl⟩ := hp
  have hover := (wedged_iff (ready_of_run hg.of_append hd)).mp hwedged
  have hstands := (fed_of_run hg.of_append hd).stands.append (qs.flatten ++ x)
  rw [← List.append_assoc, ← List.flatten_append] at hstands
  have hlen : 4 ≤ d.held.length := by rw [hover.1]; decide
  have hfits := hS _ hstands
  rw [packSize_append hlen] at hfits
  have := hover.2
  omega

/-- The start of a frame of the largest size, up to the size of the buffer. -/
def largestStart : List Byte := wire maxPackSize ++ List.replicate 4092 0

theorem overfull_largestStart : Overfull largestStart := by
  have hp : packSize largestStart = maxPackSize := numAt_wire (by decide) _ _
  refine ⟨?_, by rw [hp]; decide, by rw [hp]; decide⟩
  rw [largestStart, List.length_append, length_wire, List.length_replicate]

theorem largestStart_wedges :
    EachStep deliver Offered (Delivery.start ⟨0, true⟩) [largestStart] ∧
    ¬ Always deliver (fun d => ¬ Wedged d) (Delivery.start ⟨0, true⟩) [largestStart] := by
  have hlen : largestStart.length = defaultBufferSize := overfull_largestStart.1
  have hp : EachStep deliver Offered (Delivery.start ⟨0, true⟩) [largestStart] := by
    refine offered_of_length (fun piece hpiece => ?_) ?_
    · rw [List.mem_singleton.mp hpiece]
      exact List.ne_nil_of_length_pos (by rw [hlen]; decide)
    · rw [List.flatten_singleton]
      exact Nat.le_of_eq hlen
  refine ⟨hp, fun h => ?_⟩
  refine (wedged_deliver_iff (ready_start ⟨0, true⟩) (hp [] _ (List.prefix_refl _) _ rfl)).mp ?_
    (by rw [held_start]; exact overfull_largestStart)
  exact fun d' hd' => h [largestStart] (List.prefix_refl _) d' (run_cons_eq_ok.mpr ⟨d', hd', rfl⟩)

/-- Pieces that do not fill the buffer do not wedge it. -/
theorem not_overfull_of_length {conn : GameConnection} {pieces : List (List Byte)}
    (hg : EachStep deliver Offered (Delivery.start conn) pieces)
    (hlt : pieces.flatten.length < defaultBufferSize) :
    EachStep deliver (fun d piece => ¬ Overfull (d.held ++ piece)) (Delivery.start conn) pieces := by
  intro ds piece hds d hd hover
  have hfed := fed_of_run (hg.of_prefix ((List.prefix_append ds [piece]).trans hds)) hd
  have hheld := hfed.stands.suffix.length_le
  have hfull := hover.1
  obtain ⟨es, rfl⟩ := hds
  rw [List.flatten_append, List.flatten_append, List.flatten_singleton, List.length_append,
    List.length_append] at hlt
  rw [List.length_append] at hfull
  omega

theorem cutPieces_never_wedged :
    Always deliver (fun d => ¬ Wedged d) (Delivery.start ⟨0, true⟩) (cutPieces requestOfSix.frame) :=
  (never_wedged_iff (offered_cutPieces (by decide))).mpr
    (not_overfull_of_length (offered_cutPieces (by decide)) (by decide))

end GameNetwork
