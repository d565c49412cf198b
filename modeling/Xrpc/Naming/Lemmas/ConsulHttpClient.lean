import Xrpc.Naming.ConsulHttpClient

/-!
# HTTP の応答の読み込み

読み込みの結果が、断片の切れ目によらないこと。
-/

namespace Xrpc.Naming
open Xrpc.Lib Xrpc.Protocol

/-! ## 切れ目によらない読み込み -/

/-- 断片を返し終えた読み口。 -/
def ended : Option Status → Incoming
  | none => .eof
  | some status => .failed status

@[simp] theorem data_ended (failure : Option Status) : (ended failure).data = [] := by cases failure <;> rfl

@[simp] theorem failure_ended (failure : Option Status) : (ended failure).failure = failure := by cases failure <;> rfl

theorem proper_ended (failure : Option Status) : (ended failure).Proper := by cases failure <;> trivial

theorem stable_findPattern (pattern : Bytes) : Feed.Stable (findPattern pattern) :=
  fun _ _ rest h => findPattern_append h rest

theorem stable_atLeast (n : Nat) : Feed.Stable (atLeast n) := by
  intro buffer x rest h
  rw [atLeast] at h ⊢
  split at h
  next hle => rw [if_pos (by rw [List.length_append]; omega)]
  next => cases h

variable {socket : Incoming} {buffer body : Bytes}

theorem readUntilClose_eq (h : socket.Proper) :
    readUntilClose socket buffer = readUntilClose (ended socket.failure) (buffer ++ socket.data) := by
  induction socket generalizing buffer with
  | eof => rw [Feed.data, List.append_nil]; rfl
  | failed status => rfl
  | chunk received socket ih =>
      rw [readUntilClose, if_neg (by simpa using h.1), ih h.2, Feed.data, List.append_assoc]
      rfl

theorem readUntil_ended_ok {β : Type} {found : Bytes → Option β} {x : β} (h : found buffer = some x)
    (failure : Option Status) :
    (ended failure).readUntil eofStatus found buffer = .ok (x, buffer, ended failure) := by
  rw [Feed.readUntil, h]

theorem readContentLengthBody_eq (h : socket.Proper) (contentLength : Nat) :
    readContentLengthBody socket buffer contentLength =
      readContentLengthBody (ended socket.failure) (buffer ++ socket.data) contentLength := by
  have hstable := stable_atLeast contentLength
  simp only [readContentLengthBody]
  cases hfound : atLeast contentLength (buffer ++ socket.data) with
  | none =>
      rw [Feed.readUntil_of_none h hstable hfound,
        Feed.readUntil_of_none (proper_ended _) hstable (by rw [data_ended, List.append_nil, hfound]), failure_ended]
  | some x =>
      obtain ⟨buffer', socket', hread, -, -⟩ := Feed.readUntil_of_some eofStatus hstable h hfound
      obtain ⟨hlength, hdata⟩ := Feed.readUntil_eq_ok hread
      have hle : contentLength ≤ buffer'.length := by
        rw [atLeast] at hlength
        split at hlength
        next hle => exact hle
        next => cases hlength
      rw [hread, readUntil_ended_ok hfound, ← hdata]
      simp only [List.take_append_of_le_length hle]

/-- 断片の大きさを読んだ後。 -/
def readChunk (socket : Incoming) (buffer body : Bytes) (chunkSize : Nat) : Except Status Bytes :=
  if chunkSize = 0 then .ok body
  else if SIZE_MAX - 2 < chunkSize then .error ⟨.dataLoss, text "chunk size exceeds addressable range"⟩
  else
    match socket.readUntil eofStatus (atLeast (chunkSize + 2)) buffer with
    | .error status => .error status
    | .ok (_, buffer, socket) =>
        if (buffer.drop chunkSize).take 2 ≠ CRLF then .error ⟨.dataLoss, text "invalid chunk terminator"⟩
        else readChunkedBody socket (buffer.drop (chunkSize + 2)) (body ++ buffer.take chunkSize)

theorem readChunkedBody_of_error {status : Status}
    (h : socket.readUntil eofStatus (findPattern CRLF) buffer = .error status) :
    readChunkedBody socket buffer body = .error status := by
  rw [readChunkedBody]
  split
  next heq => rw [h] at heq; cases heq; rfl
  next heq => rw [h] at heq; cases heq

theorem readChunkedBody_of_ok {lineEnd : Nat} {buffer₁ : Bytes} {socket₁ : Incoming}
    (h : socket.readUntil eofStatus (findPattern CRLF) buffer = .ok (lineEnd, buffer₁, socket₁)) :
    readChunkedBody socket buffer body =
      (parseChunkSize (buffer₁.take lineEnd)).bind (readChunk socket₁ (buffer₁.drop (lineEnd + 2)) body) := by
  rw [readChunkedBody]
  split
  next heq => rw [h] at heq; cases heq
  next heq =>
    rw [h] at heq
    cases heq
    split
    next status hsize => rw [hsize]; rfl
    next chunkSize hsize =>
      rw [hsize]
      show _ = readChunk socket₁ (buffer₁.drop (lineEnd + 2)) body chunkSize
      rw [readChunk]
      by_cases hzero : chunkSize = 0
      · rw [if_pos hzero, if_pos hzero]
      · rw [if_neg hzero, if_neg hzero]
        by_cases hlarge : SIZE_MAX - 2 < chunkSize
        · rw [if_pos hlarge, if_pos hlarge]
        · rw [if_neg hlarge, if_neg hlarge]
          split
          next heq => rw [heq]
          next heq => rw [heq]

theorem readChunk_eq (h : socket.Proper) (chunkSize : Nat)
    (ih : ∀ socket' buffer' body', Feed.Proper socket' →
      (buffer' ++ socket'.data).length < (buffer ++ socket.data).length →
      readChunkedBody socket' buffer' body' = readChunkedBody (ended socket'.failure) (buffer' ++ socket'.data) body') :
    readChunk socket buffer body chunkSize = readChunk (ended socket.failure) (buffer ++ socket.data) body chunkSize := by
  have hstable := stable_atLeast (chunkSize + 2)
  simp only [readChunk]
  by_cases hzero : chunkSize = 0
  · rw [if_pos hzero, if_pos hzero]
  by_cases hlarge : SIZE_MAX - 2 < chunkSize
  · rw [if_neg hzero, if_neg hzero, if_pos hlarge, if_pos hlarge]
  rw [if_neg hzero, if_neg hzero, if_neg hlarge, if_neg hlarge]
  cases hfound : atLeast (chunkSize + 2) (buffer ++ socket.data) with
  | none =>
      rw [Feed.readUntil_of_none h hstable hfound,
        Feed.readUntil_of_none (proper_ended _) hstable (by rw [data_ended, List.append_nil, hfound]), failure_ended]
  | some x =>
      obtain ⟨buffer', socket', hread, hproper, hfailure⟩ := Feed.readUntil_of_some eofStatus hstable h hfound
      obtain ⟨hlength, hdata⟩ := Feed.readUntil_eq_ok hread
      have hle : chunkSize + 2 ≤ buffer'.length := by
        rw [atLeast] at hlength
        split at hlength
        next hle => exact hle
        next => cases hlength
      have hshort : (buffer'.drop (chunkSize + 2) ++ socket'.data).length < (buffer ++ socket.data).length := by
        rw [← hdata]
        simp only [List.length_append, List.length_drop]
        omega
      rw [hread, readUntil_ended_ok hfound, ← hdata, ← hfailure]
      simp only [List.take_append_of_le_length (show chunkSize ≤ buffer'.length by omega),
        List.drop_append_of_le_length (show chunkSize ≤ buffer'.length by omega), List.drop_append_of_le_length hle,
        List.take_append_of_le_length (show 2 ≤ (buffer'.drop chunkSize).length by rw [List.length_drop]; omega)]
      rw [ih _ _ _ hproper hshort]

theorem readChunkedBody_eq (h : socket.Proper) :
    readChunkedBody socket buffer body = readChunkedBody (ended socket.failure) (buffer ++ socket.data) body := by
  induction hn : (buffer ++ socket.data).length using Nat.strong_induction_on generalizing socket buffer body with
  | _ n ih =>
      have hstable := stable_findPattern CRLF
      cases hline : findPattern CRLF (buffer ++ socket.data) with
      | none =>
          rw [readChunkedBody_of_error (Feed.readUntil_of_none h hstable hline), readChunkedBody_of_error
            (Feed.readUntil_of_none (proper_ended _) hstable (by rw [data_ended, List.append_nil, hline])), failure_ended]
      | some lineEnd =>
          obtain ⟨buffer₁, socket₁, hread, hproper, hfailure⟩ :=
            Feed.readUntil_of_some eofStatus hstable h hline
          obtain ⟨hfound, hdata⟩ := Feed.readUntil_eq_ok hread
          have hle : lineEnd + 2 ≤ buffer₁.length := findPattern_le hfound
          rw [readChunkedBody_of_ok hread, readChunkedBody_of_ok (readUntil_ended_ok hline _), ← hdata, ← hfailure,
            List.take_append_of_le_length (by omega), List.drop_append_of_le_length hle]
          congr 1
          funext chunkSize
          refine readChunk_eq hproper chunkSize fun socket' buffer' body' hproper' hshort => ?_
          refine ih _ ?_ hproper' rfl
          rw [← hn, ← hdata]
          refine lt_of_lt_of_le hshort ?_
          simp only [List.length_append, List.length_drop]
          omega

theorem readBody_eq (h : socket.Proper) (headers : Headers) :
    readBody socket headers buffer = readBody (ended socket.failure) headers (buffer ++ socket.data) := by
  rw [readBody, readBody]
  split
  next =>
    split
    next => exact readChunkedBody_eq h
    next => exact readUntilClose_eq h
  next =>
    split
    next =>
      split
      next => rfl
      next => exact readContentLengthBody_eq h _
    next => exact readUntilClose_eq h

/-- 応答は、断片をつないだ列と、その後の失敗だけで決まる。 -/
theorem readResponse_eq (h : socket.Proper) :
    readResponse socket =
      match findPattern (CRLF ++ CRLF) socket.data with
      | none => .error (socket.failure.getD eofStatus)
      | some headerEnd =>
          (parseHeaderBlock (socket.data.take headerEnd)).bind fun parsed =>
            (readBody (ended socket.failure) parsed.2 (socket.data.drop (headerEnd + 4))).map fun body =>
              ⟨parsed.1, parsed.2, body⟩ := by
  have hstable := stable_findPattern (CRLF ++ CRLF)
  cases socket with
  | eof => rfl
  | failed status => rfl
  | chunk received rest =>
      rw [readResponse, Feed.readMore, if_neg (by simpa using h.1), List.nil_append]
      simp only [Feed.data, Feed.failure]
      cases hfound : findPattern (CRLF ++ CRLF) (received ++ rest.data) with
      | none => rw [Feed.readUntil_of_none h.2 hstable hfound]
      | some headerEnd =>
          obtain ⟨buffer', socket', hread, hproper, hfailure⟩ :=
            Feed.readUntil_of_some eofStatus hstable h.2 hfound
          obtain ⟨hfound', hdata⟩ := Feed.readUntil_eq_ok hread
          have hle : headerEnd + 4 ≤ buffer'.length := findPattern_le hfound'
          rw [hread, ← hdata, ← hfailure]
          simp only [List.take_append_of_le_length (show headerEnd ≤ buffer'.length by omega),
            List.drop_append_of_le_length hle]
          cases parseHeaderBlock (buffer'.take headerEnd) with
          | error status => rfl
          | ok parsed =>
              obtain ⟨statusCode, headers⟩ := parsed
              simp only [Except.bind]
              rw [readBody_eq hproper]

end Xrpc.Naming
