import Mathlib

/-!
# 断片ごとの読み込み

断片を次々に返す読み口から、バッファが条件を満たすまで読む繰り返し。
条件が後続の入力で変わらなければ、結果は、断片をつないだ列だけで決まる。
-/

namespace Xrpc.Lib

variable {α ε β : Type}

/-- 読み口。断片を返し終えると、終わりを告げるか、失敗する。 -/
inductive Feed (α ε : Type) where
  | eof
  | failed (error : ε)
  | chunk (received : List α) (rest : Feed α ε)

namespace Feed

/-- これから読むすべての要素。 -/
def data : Feed α ε → List α
  | .eof | .failed _ => []
  | .chunk received rest => received ++ rest.data

/-- 断片を返し終えた後の失敗。 -/
def failure : Feed α ε → Option ε
  | .eof => none
  | .failed error => some error
  | .chunk _ rest => rest.failure

/-- どの断片も空でない。空の断片は、終わりと区別できない。 -/
def Proper : Feed α ε → Prop
  | .eof | .failed _ => True
  | .chunk received rest => received ≠ [] ∧ rest.Proper

/-- `chunks` を順に返し、終わりを告げる読み口。 -/
def ofChunks (chunks : List (List α)) : Feed α ε := chunks.foldr .chunk .eof

@[simp] theorem data_ofChunks (chunks : List (List α)) : (ofChunks chunks : Feed α ε).data = chunks.flatten := by
  induction chunks with
  | nil => rfl
  | cons received chunks ih => rw [List.flatten_cons, ← ih]; rfl

@[simp] theorem failure_ofChunks (chunks : List (List α)) : (ofChunks chunks : Feed α ε).failure = none := by
  induction chunks with
  | nil => rfl
  | cons received chunks ih => exact ih

theorem proper_ofChunks {chunks : List (List α)} (h : ∀ received ∈ chunks, received ≠ []) :
    (ofChunks chunks : Feed α ε).Proper := by
  induction chunks with
  | nil => trivial
  | cons received chunks ih =>
      exact ⟨h received List.mem_cons_self, ih fun c hc => h c (List.mem_cons_of_mem _ hc)⟩

/-- 一回読んで、バッファに継ぎ足す。終わりなら `atEnd` で失敗する。 -/
def readMore (atEnd : ε) : Feed α ε → List α → Except ε (List α × Feed α ε)
  | .eof, _ => .error atEnd
  | .failed error, _ => .error error
  | .chunk received rest, buffer => if received.isEmpty then .error atEnd else .ok (buffer ++ received, rest)

theorem readMore_eq_ok {atEnd : ε} {feed rest : Feed α ε} {buffer buffer' : List α}
    (h : feed.readMore atEnd buffer = .ok (buffer', rest)) :
    ∃ received, feed = .chunk received rest ∧ buffer' = buffer ++ received := by
  cases feed with
  | eof | failed => cases h
  | chunk received rest' =>
      rw [readMore] at h
      split at h
      next => cases h
      next => cases h; exact ⟨received, rfl, rfl⟩

/-- `found` がバッファの中に見つけるまで読む。 -/
def readUntil (atEnd : ε) (found : List α → Option β) (feed : Feed α ε) (buffer : List α) :
    Except ε (β × List α × Feed α ε) :=
  match found buffer with
  | some x => .ok (x, buffer, feed)
  | none =>
      match _h : feed.readMore atEnd buffer with
      | .error error => .error error
      | .ok (buffer, rest) => readUntil atEnd found rest buffer
termination_by sizeOf feed
decreasing_by
  obtain ⟨received, rfl, -⟩ := readMore_eq_ok _h
  simp

/-- 見つけたものは、後に何が続いても変わらない。 -/
def Stable (found : List α → Option β) : Prop :=
  ∀ buffer x rest, found buffer = some x → found (buffer ++ rest) = some x

variable {atEnd : ε} {found : List α → Option β} {feed feed' : Feed α ε} {buffer buffer' : List α} {x : β}

/-- 読み終えたバッファには見つけたものがあり、読んだ列は失われない。 -/
theorem readUntil_eq_ok (h : feed.readUntil atEnd found buffer = .ok (x, buffer', feed')) :
    found buffer' = some x ∧ buffer' ++ feed'.data = buffer ++ feed.data := by
  fun_induction readUntil atEnd found feed buffer with
  | case1 feed buffer x hfound => cases h; exact ⟨hfound, rfl⟩
  | case2 => cases h
  | case3 feed buffer hnone buffer₁ rest hread ih =>
      obtain ⟨received, rfl, rfl⟩ := readMore_eq_ok hread
      rw [(ih h).2, data, List.append_assoc]
      exact ⟨(ih h).1, rfl⟩

theorem readUntil_length (h : feed.readUntil atEnd found buffer = .ok (x, buffer', feed')) :
    buffer'.length + feed'.data.length = buffer.length + feed.data.length := by
  rw [← List.length_append, (readUntil_eq_ok h).2, List.length_append]

/-- 条件が後続で変わらなければ、見つけるものは、つないだ列の中で見つけるものである。 -/
theorem readUntil_of_some (atEnd : ε) (hstable : Stable found) (hproper : feed.Proper) (h : found (buffer ++ feed.data) = some x) :
    ∃ buffer' feed', feed.readUntil atEnd found buffer = .ok (x, buffer', feed') ∧
      feed'.Proper ∧ feed'.failure = feed.failure := by
  fun_induction readUntil atEnd found feed buffer with
  | case1 feed buffer y hfound =>
      rw [hstable _ _ _ hfound] at h
      exact ⟨buffer, feed, by rw [Option.some.inj h], hproper, rfl⟩
  | case2 feed buffer hnone error hread =>
      -- 読み口が尽きていれば、つないだ列はバッファそのものである
      cases feed with
      | eof | failed => rw [data, List.append_nil, hnone] at h; cases h
      | chunk received rest =>
          rw [readMore, if_neg (by simpa using hproper.1)] at hread
          cases hread
  | case3 feed buffer hnone buffer₁ rest hread ih =>
      obtain ⟨received, rfl, rfl⟩ := readMore_eq_ok hread
      rw [data, ← List.append_assoc] at h
      exact ih hproper.2 h

theorem readUntil_of_none (hproper : feed.Proper) (hstable : Stable found) (h : found (buffer ++ feed.data) = none) :
    feed.readUntil atEnd found buffer = .error (feed.failure.getD atEnd) := by
  fun_induction readUntil atEnd found feed buffer with
  | case1 feed buffer y hfound => rw [hstable _ _ _ hfound] at h; cases h
  | case2 feed buffer hnone error hread =>
      cases feed with
      | eof | failed => cases hread; rfl
      | chunk received rest =>
          rw [readMore, if_neg (by simpa using hproper.1)] at hread
          cases hread
  | case3 feed buffer hnone buffer₁ rest hread ih =>
      obtain ⟨received, rfl, rfl⟩ := readMore_eq_ok hread
      rw [data, ← List.append_assoc] at h
      exact ih hproper.2 h

end Feed

end Xrpc.Lib
