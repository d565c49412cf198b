import Xrpc.Lib.Framing
import Xrpc.Protocol.FrameStream

/-!
# 受信の流れが抽象の受信側を実現すること
-/

namespace Xrpc.Protocol
open Xrpc.Lib

variable {p : Platform} {policy : CapacityPolicy} {limits : ProtocolLimits}

/-! ## `ByteBuffer` は読めるバイトの列として振る舞う -/

namespace ByteBuffer

/-- 位置は中身の範囲にあり、読めるものがないときは 0 である。 -/
def WF (b : ByteBuffer) : Prop := b.readOffset < b.buffer.data.length ∨ b.readOffset = 0

theorem fresh_wf : (fresh policy).WF := Or.inr rfl

theorem WF.readOffset_le {b : ByteBuffer} (h : b.WF) : b.readOffset ≤ b.buffer.data.length := by
  rcases h with h | h <;> omega

theorem readableBytes_eq (b : ByteBuffer) : b.readableBytes = b.buffer.data.drop b.readOffset := by
  by_cases hzero : b.readableSize = 0
  · rw [readableBytes, if_pos hzero, List.drop_eq_nil_of_le (by simp only [readableSize] at hzero; omega)]
  · rw [readableBytes, if_neg hzero, List.take_of_length_le (by rw [List.length_drop, readableSize])]

theorem length_readableBytes (b : ByteBuffer) : b.readableBytes.length = b.readableSize := by
  rw [readableBytes_eq, List.length_drop, readableSize]

theorem WF.append (policy : CapacityPolicy) {b : ByteBuffer} (h : b.WF) (bytes : Bytes) :
    ∃ b', b.append policy bytes = some b' ∧ b'.WF ∧ b'.readableBytes = b.readableBytes ++ bytes := by
  have hle := h.readOffset_le
  by_cases hempty : bytes = []
  · subst hempty
    exact ⟨b, by simp [ByteBuffer.append], h, by simp⟩
  · have hne : bytes.isEmpty = false := by simpa using hempty
    have hpos : 0 < bytes.length := List.length_pos_iff.mpr hempty
    have hgrow : ∀ c : ByteBuffer, c.readOffset ≤ c.buffer.data.length →
        (⟨c.buffer.append policy bytes, c.readOffset⟩ : ByteBuffer).WF ∧
          (⟨c.buffer.append policy bytes, c.readOffset⟩ : ByteBuffer).readableBytes = c.readableBytes ++ bytes := by
      intro c hcle
      have hwf : (⟨c.buffer.append policy bytes, c.readOffset⟩ : ByteBuffer).WF := by
        left
        simp only [StdString.append, StdString.assign, List.length_append]
        omega
      refine ⟨hwf, ?_⟩
      rw [readableBytes_eq, readableBytes_eq]
      simp only [StdString.append, StdString.assign]
      rw [List.drop_append_of_le_length hcle]
    simp only [ByteBuffer.append, hne, Bool.false_eq_true, ↓reduceIte]
    split_ifs with hfull
    · -- 詰めると位置は 0 になり、読める部分は変わらない。
      simp only [compact]
      split_ifs with hzero hlt
      · exact ⟨_, rfl, hgrow b hle⟩
      · obtain ⟨hwf', hbytes⟩ := hgrow ⟨b.buffer.erasePrefix policy b.readOffset, 0⟩ (Nat.zero_le _)
        refine ⟨_, rfl, hwf', ?_⟩
        rw [hbytes, readableBytes_eq, readableBytes_eq]
        simp [StdString.erasePrefix, StdString.assign]
      · exact absurd h (by simp [WF, hlt, hzero])
    · exact ⟨_, rfl, hgrow b hle⟩

theorem WF.consume (policy : CapacityPolicy) {b : ByteBuffer} (h : b.WF) {n : Nat} (hn : n ≤ b.readableSize) :
    ∃ b', b.consume policy n = some b' ∧ b'.WF ∧ b'.readableBytes = b.readableBytes.drop n := by
  have hle := h.readOffset_le
  rw [readableBytes_eq b, List.drop_drop]
  simp only [ByteBuffer.consume, Nat.not_lt.mpr hn, ↓reduceIte]
  split_ifs with hend
  · have hwf : (⟨b.buffer.clear policy, 0⟩ : ByteBuffer).WF := Or.inr rfl
    refine ⟨_, rfl, hwf, ?_⟩
    rw [readableBytes_eq, hend, List.drop_length]
    rfl
  · have hwf : (⟨b.buffer, b.readOffset + n⟩ : ByteBuffer).WF := by
      left
      simp only [readableSize] at hn
      show b.readOffset + n < b.buffer.data.length
      omega
    exact ⟨_, rfl, hwf, readableBytes_eq _⟩

end ByteBuffer

/-! ## 待ち行列の操作 -/

namespace ByteQueue
open ByteBuffer (Op)

theorem appended_append (done ops : List Op) : appended (done ++ ops) = appended done ++ appended ops := by
  induction done with
  | nil => rfl
  | cons op done ih => cases op <;> simp [appended, ih]

theorem consumed_append (done ops : List Op) : consumed (done ++ ops) = consumed done + consumed ops := by
  induction done with
  | nil => simp [consumed]
  | cons op done ih => cases op <;> simp [consumed, ih, Nat.add_assoc]

theorem content_append {done : List Op} (h : consumed done ≤ (appended done).length) (bytes : Bytes) :
    content (done ++ [.append bytes]) = content done ++ bytes := by
  simp only [content, appended_append, consumed_append, appended, consumed, List.append_nil, Nat.add_zero]
  exact List.drop_append_of_le_length h

theorem content_consume (done : List Op) (n : Nat) : content (done ++ [.consume n]) = (content done).drop n := by
  simp only [content, appended_append, consumed_append, appended, consumed, List.append_nil, Nat.add_zero, List.drop_drop]

theorem content_readableBytes (done : List Op) : content (done ++ [.readableBytes]) = content done := by
  simp only [content, appended_append, consumed_append, appended, consumed, List.append_nil, Nat.add_zero]

/-- 消費した数は、足した数を超えない。 -/
theorem Within.consumed_le {ops : List Op} (h : Within ops) : consumed ops ≤ (appended ops).length := by
  -- 末尾の呼び出しについての帰納法。`consume` の条件は、その前までの呼び出しについて述べている。
  induction ops using List.reverseRecOn with
  | nil => exact Nat.le_refl 0
  | append_singleton done op ih =>
      have hdone := ih fun done' n rest heq => h done' n (rest ++ [op]) (by rw [heq]; simp)
      rw [appended_append, consumed_append, List.length_append]
      cases op with
      | append bytes => simp only [appended, consumed]; omega
      | consume n =>
          have hn := h done n [] rfl
          rw [content, List.length_drop] at hn
          simp only [appended, consumed, List.length_nil]
          omega
      | readableBytes => simp only [appended, consumed]; omega

end ByteQueue

/-- `ByteBuffer` への呼び出しの列は、待ち行列の同じ列を実現する。 -/
theorem ByteBuffer.run_spec {b : ByteBuffer} {done : List ByteBuffer.Op} {calls : List (CapacityPolicy × ByteBuffer.Op)}
    (hwf : b.WF) (hbytes : b.readableBytes = ByteQueue.content done)
    (hwithin : ByteQueue.Within (done ++ calls.map Prod.snd)) :
    ∃ b', b.run calls = some (ByteQueue.views done (calls.map Prod.snd), b') ∧ b'.WF ∧
      b'.readableBytes = ByteQueue.content (done ++ calls.map Prod.snd) := by
  induction calls generalizing b done with
  | nil => exact ⟨b, rfl, hwf, by simpa using hbytes⟩
  | cons call calls ih =>
      obtain ⟨policy, op⟩ := call
      have hnext : done ++ (op :: calls.map Prod.snd) = (done ++ [op]) ++ calls.map Prod.snd := by simp
      rw [List.map_cons, hnext] at hwithin ⊢
      cases op with
      | append bytes =>
          have hle : ByteQueue.consumed done ≤ (ByteQueue.appended done).length :=
            ByteQueue.Within.consumed_le fun done' n rest heq => hwithin done' n _ (by rw [heq]; simp; rfl)
          obtain ⟨b₁, happend, hwf₁, hbytes₁⟩ := hwf.append policy bytes
          rw [hbytes, ← ByteQueue.content_append hle] at hbytes₁
          obtain ⟨b', hrun, hfinal⟩ := ih hwf₁ hbytes₁ hwithin
          exact ⟨b', by simpa [run, happend, ByteQueue.views] using hrun, hfinal⟩
      | consume n =>
          have hn : n ≤ b.readableSize := by
            rw [← length_readableBytes, hbytes]
            exact hwithin done n (calls.map Prod.snd) (by simp)
          obtain ⟨b₁, hconsume, hwf₁, hbytes₁⟩ := hwf.consume policy hn
          rw [hbytes, ← ByteQueue.content_consume] at hbytes₁
          obtain ⟨b', hrun, hfinal⟩ := ih hwf₁ hbytes₁ hwithin
          exact ⟨b', by simpa [run, hconsume, ByteQueue.views] using hrun, hfinal⟩
      | readableBytes =>
          rw [← ByteQueue.content_readableBytes] at hbytes
          obtain ⟨b', hrun, hfinal⟩ := ih hwf hbytes hwithin
          refine ⟨b', ?_, hfinal⟩
          simp [run, hrun, ByteQueue.views, hbytes, ByteQueue.content_readableBytes]

/-! ## 復号器 -/

section FrameDecoder

variable {μ : Type} {select : FrameDecodeResult → Option μ}

/-- `FrameCodec.decode` の結果のうち、`select` が選ぶ中身だけをフレームと認める。 -/
def decodeStep (p : Platform) (limits : ProtocolLimits) (select : FrameDecodeResult → Option μ) (b : Bytes) :
    DecodeStep μ :=
  let decoded := FrameCodec.decode p ⟨limits⟩ b
  if decoded.error = .needMoreData then .more
  else if decoded.error = .ok then
    match select decoded with
    | some m => .frame decoded.consumed m
    | none => .fail
  else .fail

theorem decodeStep_frame {b : Bytes} {n : Nat} {m : μ} :
    decodeStep p limits select b = .frame n m ↔
      (FrameCodec.decode p ⟨limits⟩ b).error = .ok ∧ (FrameCodec.decode p ⟨limits⟩ b).consumed = n ∧
        select (FrameCodec.decode p ⟨limits⟩ b) = some m := by
  simp only [decodeStep]
  cases herr : (FrameCodec.decode p ⟨limits⟩ b).error <;>
    cases hsel : select (FrameCodec.decode p ⟨limits⟩ b) <;> simp

theorem decodeStep_more {b : Bytes} :
    decodeStep p limits select b = .more ↔ (FrameCodec.decode p ⟨limits⟩ b).error = .needMoreData := by
  simp only [decodeStep]
  cases herr : (FrameCodec.decode p ⟨limits⟩ b).error <;>
    cases hsel : select (FrameCodec.decode p ⟨limits⟩ b) <;> simp

theorem decodeStep_fail {b : Bytes} (h : decodeStep p limits select b = .fail) :
    (FrameCodec.decode p ⟨limits⟩ b).error ≠ .needMoreData := by
  intro hmore
  simp [decodeStep, hmore] at h

/-- 復号の安定性から、`decodeStep` は逐次復号の復号器になる。 -/
def frameDecoder (p : Platform) (limits : ProtocolLimits) (select : FrameDecodeResult → Option μ) :
    StreamDecoder UInt8 μ where
  decode := decodeStep p limits select
  nil_more := by simp [decodeStep, FrameCodec.decode, readFrame, FrameHeader.SIZE]
  frame_pos := by
    intro b n m h
    obtain ⟨hok, rfl, _⟩ := decodeStep_frame.mp h
    exact Nat.lt_of_lt_of_le (by decide) (decode_ok_consumed hok).1
  frame_le := by
    intro b n m h
    obtain ⟨hok, rfl, _⟩ := decodeStep_frame.mp h
    exact (decode_ok_consumed hok).2
  frame_take := by
    intro b n m h
    obtain ⟨hok, rfl, hsel⟩ := decodeStep_frame.mp h
    obtain ⟨header, hat, hconsumed, _⟩ := decode_ok hok
    have htake := hat.decode_take
    rw [← hconsumed] at htake
    exact decodeStep_frame.mpr ⟨by rw [htake]; exact hok, by rw [htake], by rw [htake]; exact hsel⟩
  frame_append := by
    intro b n m x h
    have happ : FrameCodec.decode p ⟨limits⟩ (b ++ x) = FrameCodec.decode p ⟨limits⟩ b :=
      decode_append x (by rw [(decodeStep_frame.mp h).1]; decide)
    simpa only [decodeStep, happ] using h
  fail_append := by
    intro b x h
    have happ : FrameCodec.decode p ⟨limits⟩ (b ++ x) = FrameCodec.decode p ⟨limits⟩ b :=
      decode_append x (decodeStep_fail h)
    simpa only [decodeStep, happ] using h

end FrameDecoder

/-- 入力を待つのは、溜めたバイトが一つのフレームの上限に満たない間だけである。 -/
theorem frameDecoder_more_length {μ : Type} {select : FrameDecodeResult → Option μ} {b : Bytes}
    (h : (frameDecoder p limits select).decode b = .more) :
    b.length < FrameHeader.SIZE + limits.maxMetadataSize + limits.maxPayloadSize :=
  length_lt_of_needMoreData (decode_needMoreData.mp (decodeStep_more.mp h))

/-- 上限を超える長さを宣言した先頭部は、後ろに何が続いても復号できない。 -/
theorem frameDecoder_fail_of_oversize {μ : Type} {select : FrameDecodeResult → Option μ} {b : Bytes} {header : FrameHeader}
    (hheader : FrameHeader.decode p.endian (b.take FrameHeader.SIZE) = some header)
    (hover : limits.maxMetadataSize < header.metadataSize.toNat ∨ limits.maxPayloadSize < header.payloadSize.toNat) :
    (frameDecoder p limits select).decode b = .fail := by
  have hread := readFrame_of_oversize hheader hover
  have hne : (readFrame p b (FrameCodec.mk limits).limits).error ≠ .ok := by
    rcases hread with hread | hread <;> simp [hread]
  simp only [frameDecoder, decodeStep, decode_of_readFrame_ne_ok hne]
  rcases hread with hread | hread <;> simp [hread]

/-- サーバーが使う復号器。要求だけを認める。 -/
def requestDecoder (p : Platform) (limits : ProtocolLimits) : StreamDecoder UInt8 RequestEnvelope :=
  frameDecoder p limits (·.request)

theorem requestDecoder_size_le {b : Bytes} {n : Nat} {m : RequestEnvelope}
    (h : (requestDecoder p limits).decode b = .frame n m) : FrameHeader.SIZE ≤ n := by
  obtain ⟨hok, rfl, -⟩ := decodeStep_frame.mp h
  exact (decode_ok_consumed hok).1

/-! ## `RpcFrameStream` の一回の呼び出し -/

namespace RpcFrameStream

/-- 流れの状態が抽象の受信側 `r` を表す。 -/
structure Refines (s : RpcFrameStream) (limits : ProtocolLimits) (r : Receiver UInt8) : Prop where
  limits_eq : s.protocolLimits = limits
  wf : s.buffer.WF
  closed_eq : s.closed = r.closed
  bytes_eq : s.closed = false → s.buffer.readableBytes = r.buffer

/-- 何も取り出せないとき、状態は変わらないか、閉じるかのどちらかである。 -/
theorem refines_stop {s : RpcFrameStream} (hlimits : s.protocolLimits = limits) (hwf : s.buffer.WF)
    (hstop : ∀ n m, (requestDecoder p limits).decode s.buffer.readableBytes ≠ .frame n m)
    (closed : Bool) (hclosed : closed = ((requestDecoder p limits).decode s.buffer.readableBytes).isFail) :
    ({ s with closed := closed } : RpcFrameStream).Refines limits
      ⟨((requestDecoder p limits).parse s.buffer.readableBytes).2,
        ((requestDecoder p limits).decode ((requestDecoder p limits).parse s.buffer.readableBytes).2).isFail⟩ := by
  rw [StreamDecoder.parse_stop hstop]
  exact ⟨hlimits, hwf, hclosed, fun _ => rfl⟩

theorem decodeAvailableRequests_more {s : RpcFrameStream} {requests : RequestEnvelopeBatch}
    (h : (requestDecoder p s.protocolLimits).decode s.buffer.readableBytes = .more) :
    s.decodeAvailableRequests p policy requests = some (requests, s) := by
  have hmore := decodeStep_more.mp h
  rw [decodeAvailableRequests]
  simp only [hmore, ↓reduceIte, ite_self]

/-- 復号できる入力か復号できない入力があるなら、溜めた入力は空でない。 -/
theorem not_isEmpty {s : RpcFrameStream}
    (h : (requestDecoder p s.protocolLimits).decode s.buffer.readableBytes ≠ .more) : s.buffer.isEmpty = false := by
  by_contra hempty
  have hzero : s.buffer.readableBytes = [] := by
    apply List.eq_nil_of_length_eq_zero
    simpa [ByteBuffer.length_readableBytes, ByteBuffer.isEmpty] using hempty
  rw [hzero] at h
  exact h (requestDecoder p s.protocolLimits).nil_more

theorem decodeAvailableRequests_fail {s : RpcFrameStream} {requests : RequestEnvelopeBatch} (hopen : s.closed = false)
    (h : (requestDecoder p s.protocolLimits).decode s.buffer.readableBytes = .fail) :
    s.decodeAvailableRequests p policy requests = some (requests, { s with closed := true }) := by
  have hmore := decodeStep_fail h
  have hempty := not_isEmpty (by rw [h]; simp)
  rw [decodeAvailableRequests]
  simp only [hempty, hopen, Bool.or_self, Bool.false_eq_true, ↓reduceIte, hmore]
  split
  · rename_i request hok hreq
    have hframe : (requestDecoder p s.protocolLimits).decode s.buffer.readableBytes = .frame _ request :=
      decodeStep_frame.mpr ⟨hok, rfl, hreq⟩
    exact absurd (hframe.symm.trans h) (by simp)
  · rfl

theorem decodeAvailableRequests_frame {s : RpcFrameStream} {requests : RequestEnvelopeBatch} (hopen : s.closed = false)
    {n : Nat} {m : RequestEnvelope} {buffer : ByteBuffer}
    (h : (requestDecoder p s.protocolLimits).decode s.buffer.readableBytes = .frame n m)
    (hconsume : s.buffer.consume policy n = some buffer) :
    s.decodeAvailableRequests p policy requests =
      ({ s with buffer := buffer } : RpcFrameStream).decodeAvailableRequests p policy (requests.push m) := by
  obtain ⟨hok, rfl, hreq⟩ := decodeStep_frame.mp h
  have hempty := not_isEmpty (by rw [h]; simp)
  rw [decodeAvailableRequests]
  simp only [hempty, hopen, Bool.or_self, Bool.false_eq_true, ↓reduceIte]
  split
  · rename_i hmore; rw [hok] at hmore; cases hmore
  · split
    · rename_i request _ hreq'
      rw [hreq] at hreq'
      obtain rfl := Option.some.inj hreq'
      split
      · rename_i hnone; rw [hconsume] at hnone; cases hnone
      · rename_i buffer' hsome
        rw [hconsume] at hsome
        obtain rfl := Option.some.inj hsome
        rfl
    · rename_i hno
      exact absurd hreq (hno m hok)

theorem decodeAvailableRequests_spec (p : Platform) (policy : CapacityPolicy) (s : RpcFrameStream)
    (requests : RequestEnvelopeBatch)
    (hlimits : s.protocolLimits = limits) (hwf : s.buffer.WF) (hopen : s.closed = false) :
    ∃ requests' s', s.decodeAvailableRequests p policy requests = some (requests', s') ∧
      requests'.toList = requests.toList ++ ((requestDecoder p limits).parse s.buffer.readableBytes).1 ∧
      s'.Refines limits
        ⟨((requestDecoder p limits).parse s.buffer.readableBytes).2,
          ((requestDecoder p limits).decode ((requestDecoder p limits).parse s.buffer.readableBytes).2).isFail⟩ := by
  subst hlimits
  -- 読めるバイト数についての帰納法。一つ取り出すごとに減る。
  induction hsize : s.buffer.readableSize using Nat.strong_induction_on generalizing s requests with
  | _ k ih =>
      have hself : s = { s with closed := false } := by rw [← hopen]
      cases hstep : (requestDecoder p s.protocolLimits).decode s.buffer.readableBytes with
      | more =>
          have hstop : ∀ n m, (requestDecoder p s.protocolLimits).decode s.buffer.readableBytes ≠ .frame n m := by
            simp [hstep]
          have hrefines := refines_stop rfl hwf hstop false (by rw [hstep]; rfl)
          rw [← hself] at hrefines
          exact ⟨requests, s, decodeAvailableRequests_more hstep,
            by rw [StreamDecoder.parse_stop hstop, List.append_nil], hrefines⟩
      | frame n m =>
          have hn : n ≤ s.buffer.readableSize := by
            rw [← ByteBuffer.length_readableBytes]
            exact (requestDecoder p s.protocolLimits).frame_le hstep
          have hpos := (requestDecoder p s.protocolLimits).frame_pos hstep
          obtain ⟨buffer, hconsume, hwf', hbytes⟩ := hwf.consume policy hn
          have hshort := ByteBuffer.consume_readableSize hconsume
          obtain ⟨requests', s', hrun, hlist, hrefines⟩ :=
            ih buffer.readableSize (by omega) { s with buffer := buffer } (requests.push m) hwf' hopen rfl
          simp only [hbytes] at hlist hrefines
          rw [decodeAvailableRequests_frame hopen hstep hconsume, StreamDecoder.parse_frame hstep]
          exact ⟨requests', s', hrun, by simpa using hlist, hrefines⟩
      | fail =>
          have hstop : ∀ n m, (requestDecoder p s.protocolLimits).decode s.buffer.readableBytes ≠ .frame n m := by
            simp [hstep]
          exact ⟨requests, { s with closed := true }, decodeAvailableRequests_fail hopen hstep,
            by rw [StreamDecoder.parse_stop hstop, List.append_nil],
            refines_stop rfl hwf hstop true (by rw [hstep]; rfl)⟩

/-- 一回の `feedBytes` は、抽象の受信側の一回の受け取りを実現する。 -/
theorem feedBytes_refines (p : Platform) (policy : CapacityPolicy) {s : RpcFrameStream} {r : Receiver UInt8}
    (h : s.Refines limits r) (chunk : Bytes) :
    ∃ result s', s.feedBytes p policy chunk = some (result, s') ∧
      result.requests.toList = (r.feed (requestDecoder p limits) chunk).1 ∧
      result.closed = s'.closed ∧ s'.Refines limits (r.feed (requestDecoder p limits) chunk).2 := by
  cases hclosed : s.closed with
  | true =>
      have hr : r.closed = true := by rw [← h.closed_eq, hclosed]
      refine ⟨_, _, by rw [feedBytes, if_pos hclosed], ?_, hclosed.symm, ?_⟩
      · simp [Receiver.feed, hr]
      · simpa [Receiver.feed, hr] using h
  | false =>
      have hr : r.closed = false := by rw [← h.closed_eq, hclosed]
      obtain ⟨buffer, happ, hwf, hbytes⟩ := h.wf.append policy chunk
      obtain ⟨requests, s', hrun, hlist, hrefines⟩ :=
        decodeAvailableRequests_spec p policy { s with buffer := buffer } {} h.limits_eq hwf hclosed
      rw [h.bytes_eq hclosed] at hbytes
      simp only [hbytes] at hlist hrefines
      simp only [hclosed] at hrun
      refine ⟨⟨requests, s'.closed⟩, s', ?_, ?_, rfl, ?_⟩
      · simp [feedBytes, hclosed, happ, hrun]
      · simpa [Receiver.feed, hr] using hlist
      · simpa [Receiver.feed, hr] using hrefines

theorem fresh_refines : (fresh policy limits).Refines limits Receiver.fresh :=
  ⟨rfl, ByteBuffer.fresh_wf, rfl, fun _ => ByteBuffer.readableBytes_eq _⟩

/-- 閉じた流れは、その後の入力から何も取り出さない。 -/
theorem feedAll_closed {s s' : RpcFrameStream} {chunks : List Bytes} {results : List FrameStreamFeedResult}
    (hclosed : s.closed = true) (h : s.feedAll p policy chunks = some (results, s')) :
    ∀ result ∈ results, result.requests.toList = [] := by
  induction chunks generalizing s results with
  | nil => simp only [feedAll, Option.some.injEq, Prod.mk.injEq] at h; simp [← h.1]
  | cons chunk chunks ih =>
      simp only [feedAll, feedBytes, hclosed, ↓reduceIte, Option.pure_def, Option.bind_eq_bind, Option.bind_some,
        Option.bind_eq_some_iff, Option.some.injEq, Prod.mk.injEq, Prod.exists] at h
      obtain ⟨rest, t, hrest, rfl, rfl⟩ := h
      intro result hmem
      rcases List.mem_cons.mp hmem with rfl | hmem
      · rfl
      · exact ih hclosed hrest result hmem

/-- 断片を順に渡すことは、抽象の受信側への受け渡しを実現する。閉じた後の断片からは何も取り出さない。 -/
theorem feedAll_refines (p : Platform) (policy : CapacityPolicy) {s : RpcFrameStream} {r : Receiver UInt8}
    (h : s.Refines limits r) (chunks : List Bytes) :
    ∃ results s', s.feedAll p policy chunks = some (results, s') ∧
      results.map (·.requests.toList) = (r.feedAll (requestDecoder p limits) chunks).1 ∧
      s'.Refines limits (r.feedAll (requestDecoder p limits) chunks).2 ∧
      results.Pairwise (fun earlier later => earlier.closed = true → later.requests.toList = []) := by
  induction chunks generalizing s r with
  | nil => exact ⟨[], s, rfl, rfl, h, List.Pairwise.nil⟩
  | cons chunk chunks ih =>
      obtain ⟨result, s', hfeed, hlist, hflag, hrefines⟩ := feedBytes_refines p policy h chunk
      obtain ⟨results, s'', hrest, hlists, hrefines', hquiet⟩ := ih hrefines
      refine ⟨result :: results, s'', by simp [feedAll, hfeed, hrest], ?_, hrefines', ?_⟩
      · simp only [List.map_cons, hlist, hlists, Receiver.feedAll]
      · refine List.Pairwise.cons ?_ hquiet
        intro later hlater hclosed
        exact feedAll_closed (hflag ▸ hclosed) hrest later hlater

/-- 渡した断片をつないだものだけで、閉じたかどうかと、残った入力が決まる。 -/
theorem feedAll_flatten (p : Platform) (policy : CapacityPolicy) (limits : ProtocolLimits) (chunks : List Bytes) :
    ∃ results stream, (fresh policy limits).feedAll p policy chunks = some (results, stream) ∧
      stream.closed = ((requestDecoder p limits).decode ((requestDecoder p limits).parse chunks.flatten).2).isFail ∧
      (stream.closed = false → stream.buffer.readableBytes = ((requestDecoder p limits).parse chunks.flatten).2) := by
  obtain ⟨results, stream, hrun, -, hrefines, -⟩ := feedAll_refines p policy fresh_refines chunks
  obtain ⟨⟨hclosed, hbuffer⟩, -⟩ := Receiver.feedAll_agrees (Receiver.fresh_agrees (d := requestDecoder p limits)) chunks
  rw [List.nil_append] at hclosed hbuffer
  refine ⟨results, stream, hrun, hrefines.closed_eq.trans hclosed, fun hopen => ?_⟩
  exact (hrefines.bytes_eq hopen).trans (hbuffer (hrefines.closed_eq ▸ hopen))

/-- 閉じなかった流れの残りは、入力が足りないだけである。 -/
theorem more_of_open {chunks : List Bytes} {results : List FrameStreamFeedResult} {stream : RpcFrameStream}
    (h : (fresh policy limits).feedAll p policy chunks = some (results, stream)) (hopen : stream.closed = false) :
    (requestDecoder p limits).decode ((requestDecoder p limits).parse chunks.flatten).2 = .more := by
  obtain ⟨results', stream', hrun, hclosed, -⟩ := feedAll_flatten p policy limits chunks
  rw [h] at hrun
  cases hrun
  rw [hopen] at hclosed
  cases hdec : (requestDecoder p limits).decode ((requestDecoder p limits).parse chunks.flatten).2 with
  | more => rfl
  | frame n m => exact absurd hdec (StreamDecoder.parse_rest_stop _ n m)
  | fail => simp [hdec, DecodeStep.isFail] at hclosed

/-- 区切りの位置は、復号器の区切りの位置である。 -/
theorem cutsAt_iff {s : Bytes} {k : Nat} : CutsAt p policy limits s k ↔ (requestDecoder p limits).CutsAt s k := by
  refine and_congr_right fun _ => ⟨fun h => ?_, fun hnil chunks hflat => ?_⟩
  · obtain ⟨results, stream, hrun, -, hbuffer⟩ := feedAll_flatten p policy limits [s.take k]
    obtain ⟨results', stream', hrun', hopen, hempty⟩ := h [s.take k] (by simp)
    rw [hrun] at hrun'
    cases hrun'
    rw [List.flatten_singleton] at hbuffer
    exact (hbuffer hopen).symm.trans hempty
  · obtain ⟨results, stream, hrun, hclosed, hbuffer⟩ := feedAll_flatten p policy limits chunks
    rw [hflat, hnil] at hclosed hbuffer
    rw [(requestDecoder p limits).nil_more] at hclosed
    exact ⟨results, stream, hrun, hclosed, hbuffer hclosed⟩

end RpcFrameStream

/-! ## 完全な要求のフレームの並び -/

/-- 完全なフレームの並びであり、どのフレームも `FrameCodec.decode` が要求として受け入れる。 -/
inductive RequestFrames (p : Platform) (limits : ProtocolLimits) : Bytes → List RequestEnvelope → Prop where
  | nil : RequestFrames p limits [] []
  | cons {frame rest request requests} :
      FrameCodec.decode p ⟨limits⟩ frame = { error := .ok, consumed := frame.length, request := some request } →
      RequestFrames p limits rest requests → RequestFrames p limits (frame ++ rest) (request :: requests)

theorem decodeStep_request {b : Bytes} {n : Nat} {m : RequestEnvelope} :
    (requestDecoder p limits).decode b = .frame n m ↔
      FrameCodec.decode p ⟨limits⟩ b = { error := .ok, consumed := n, request := some m } := by
  constructor
  · intro h
    obtain ⟨hok, hconsumed, hreq⟩ := decodeStep_frame.mp h
    obtain ⟨_, _, _, ⟨_, _, hresp⟩ | ⟨_, hnone, _⟩⟩ := decode_ok hok
    · generalize FrameCodec.decode p ⟨limits⟩ b = decoded at *
      cases decoded
      simp_all
    · rw [hnone] at hreq; cases hreq
  · intro h
    exact decodeStep_frame.mpr ⟨by rw [h], by rw [h], by rw [h]⟩

theorem requestFrames_iff {b : Bytes} {requests : List RequestEnvelope} :
    RequestFrames p limits b requests ↔ (requestDecoder p limits).Frames b requests := by
  constructor
  · intro h
    induction h with
    | nil => exact .nil
    | cons hframe _ ih => exact .cons (decodeStep_request.mpr hframe) ih
  · intro h
    induction h with
    | nil => exact .nil
    | cons hframe _ ih => exact .cons (decodeStep_request.mp hframe) ih

end Xrpc.Protocol
