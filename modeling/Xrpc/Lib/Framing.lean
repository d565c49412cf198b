import Mathlib

/-!
# フレームの逐次復号

バイトの流れから一つずつフレームを取り出す復号器を、復号の関数だけから抽象して扱う。
復号の結果が後続の入力で変わらないとき、流れをどこで区切って渡しても、取り出すフレームの並びは変わらない。
-/

namespace Xrpc.Lib

variable {β μ : Type*}

/-- 一回の復号の結果。 -/
inductive DecodeStep (μ : Type*) where
  /-- 入力が足りない。 -/
  | more
  /-- 先頭の `n` 要素が一つのフレームである。 -/
  | frame (n : Nat) (m : μ)
  /-- 復号できない。 -/
  | fail

def DecodeStep.isFail : DecodeStep μ → Bool
  | .fail => true
  | _ => false

/-- フレームの長さ。 -/
def DecodeStep.size? : DecodeStep μ → Option Nat
  | .frame n _ => some n
  | _ => none

theorem DecodeStep.isFail_iff {x : DecodeStep μ} : x.isFail = true ↔ x = .fail := by
  cases x <;> simp [isFail]

/-- 結果が後続の入力で変わらず、フレームを取り出すたびに入力が短くなる復号器。 -/
structure StreamDecoder (β μ : Type*) where
  decode : List β → DecodeStep μ
  nil_more : decode [] = .more
  frame_pos : ∀ {b n m}, decode b = .frame n m → 0 < n
  frame_le : ∀ {b n m}, decode b = .frame n m → n ≤ b.length
  frame_take : ∀ {b n m}, decode b = .frame n m → decode (b.take n) = .frame n m
  frame_append : ∀ {b n m} (x), decode b = .frame n m → decode (b ++ x) = .frame n m
  fail_append : ∀ {b} (x), decode b = .fail → decode (b ++ x) = .fail

namespace StreamDecoder

variable (d : StreamDecoder β μ)

/-- 入力の先頭から取り出せるだけのフレームと、残りの入力。 -/
def parse (b : List β) : List μ × List β :=
  match _h : d.decode b with
  | .frame n m => (m :: (parse (b.drop n)).1, (parse (b.drop n)).2)
  | .more => ([], b)
  | .fail => ([], b)
termination_by b.length
decreasing_by
  all_goals
    have hpos := d.frame_pos _h
    have hle := d.frame_le _h
    simp only [List.length_drop]
    omega

/-- `p` は、完全なフレームを並べたものであり、その内容が `ms` である。 -/
inductive Frames : List β → List μ → Prop where
  | nil : Frames [] []
  | cons {f p m ms} : d.decode f = .frame f.length m → Frames p ms → Frames (f ++ p) (m :: ms)

variable {d}

theorem parse_frame {b : List β} {n : Nat} {m : μ} (h : d.decode b = .frame n m) :
    d.parse b = (m :: (d.parse (b.drop n)).1, (d.parse (b.drop n)).2) := by
  rw [parse]
  split
  · rename_i n' m' h'
    rw [h] at h'; cases h'; rfl
  · rename_i h'; rw [h] at h'; cases h'
  · rename_i h'; rw [h] at h'; cases h'

theorem parse_stop {b : List β} (h : ∀ n m, d.decode b ≠ .frame n m) : d.parse b = ([], b) := by
  rw [parse]
  split
  · rename_i n m h'; exact absurd h' (h n m)
  · rfl
  · rfl

/-- 完全なフレームの並びの後ろは、それだけを復号したのと同じである。 -/
theorem Frames.parse_append {p : List β} {ms : List μ} (h : d.Frames p ms) (x : List β) :
    d.parse (p ++ x) = (ms ++ (d.parse x).1, (d.parse x).2) := by
  induction h with
  | nil => simp
  | @cons f p m ms hf _ ih =>
      have hdec : d.decode (f ++ p ++ x) = .frame f.length m := by
        rw [List.append_assoc]; exact d.frame_append _ hf
      rw [parse_frame hdec, List.append_assoc, List.drop_left, ih]
      rfl

theorem Frames.append_frame {p f : List β} {ms : List μ} {m : μ} (h : d.Frames p ms)
    (hf : d.decode f = .frame f.length m) : d.Frames (p ++ f) (ms ++ [m]) := by
  induction h with
  | nil => simpa using Frames.cons hf .nil
  | cons hfirst _ ih =>
      rw [List.append_assoc]
      exact .cons hfirst ih

theorem Frames.nil_iff {p : List β} {ms : List μ} (h : d.Frames p ms) : p = [] ↔ ms = [] := by
  cases h with
  | nil => exact iff_of_true rfl rfl
  | @cons f p m ms hf _ =>
      have hpos := d.frame_pos hf
      refine iff_of_false (fun hnil => ?_) (List.cons_ne_nil _ _)
      rw [(List.append_eq_nil_iff.mp hnil).1] at hpos
      exact absurd hpos (Nat.lt_irrefl 0)

/-- `parse` が取り出す部分は完全なフレームの並びである。 -/
theorem parse_frames (b : List β) : ∃ p, b = p ++ (d.parse b).2 ∧ d.Frames p (d.parse b).1 := by
  -- 残りの長さについての帰納法。フレームを一つ取り出すごとに短くなる。
  induction hlen : b.length using Nat.strong_induction_on generalizing b with
  | _ k ih =>
      cases hdec : d.decode b with
      | frame n m =>
          have hpos := d.frame_pos hdec
          have hle := d.frame_le hdec
          have hshort : (b.drop n).length < k := by simp only [List.length_drop]; omega
          obtain ⟨p, hp, hframes⟩ := ih _ hshort (b.drop n) rfl
          have htake : d.decode (b.take n) = .frame (b.take n).length m := by
            rw [List.length_take, Nat.min_eq_left hle]; exact d.frame_take hdec
          refine ⟨b.take n ++ p, ?_, ?_⟩
          · rw [parse_frame hdec, List.append_assoc, ← hp, List.take_append_drop]
          · rw [parse_frame hdec]; exact .cons htake hframes
      | more =>
          rw [parse_stop (by simp [hdec])]; exact ⟨[], rfl, .nil⟩
      | fail =>
          rw [parse_stop (by simp [hdec])]; exact ⟨[], rfl, .nil⟩

/-- 残りの先頭からは、もうフレームを取り出せない。 -/
theorem parse_rest_stop (b : List β) (n : Nat) (m : μ) : d.decode (d.parse b).2 ≠ .frame n m := by
  induction hlen : b.length using Nat.strong_induction_on generalizing b with
  | _ k ih =>
      cases hdec : d.decode b with
      | frame n' m' =>
          have hpos := d.frame_pos hdec
          have hle := d.frame_le hdec
          rw [parse_frame hdec]
          exact ih (b.drop n').length (by simp only [List.length_drop]; omega) (b.drop n') rfl
      | more => rw [parse_stop (by simp [hdec])]; simp [hdec]
      | fail => rw [parse_stop (by simp [hdec])]; simp [hdec]

/-- `parse` が取り出す部分は、完全なフレームの並びである接頭辞のうち最も長い。 -/
theorem Frames.length_le {b p' p x : List β} {ms : List μ} (h : d.Frames p' ms) (hb : b = p' ++ x)
    (hp : b = p ++ (d.parse b).2) : p'.length ≤ p.length := by
  have hrest : (d.parse b).2 = (d.parse x).2 := by rw [hb, h.parse_append]
  obtain ⟨q, hq, _⟩ := parse_frames (d := d) x
  have h1 : b.length = p'.length + x.length := by rw [hb, List.length_append]
  have h2 : x.length = q.length + (d.parse x).2.length := by
    conv_lhs => rw [hq, List.length_append]
  have h3 : b.length = p.length + (d.parse b).2.length := by
    conv_lhs => rw [hp, List.length_append]
  rw [hrest] at h3
  omega

/-- 流れを途中で区切り、残りに続きを足して復号しても、結果は変わらない。 -/
theorem parse_append (a b : List β) :
    d.parse (a ++ b) = ((d.parse a).1 ++ (d.parse ((d.parse a).2 ++ b)).1, (d.parse ((d.parse a).2 ++ b)).2) := by
  obtain ⟨p, hp, hframes⟩ := parse_frames (d := d) a
  have := hframes.parse_append ((d.parse a).2 ++ b)
  rwa [← List.append_assoc, ← hp] at this

/-- 復号できない残りは、続きを足しても復号できない。 -/
theorem parse_fail_append {a : List β} (b : List β) (h : d.decode (d.parse a).2 = .fail) :
    d.parse (a ++ b) = ((d.parse a).1, (d.parse a).2 ++ b) := by
  have hfail := d.fail_append b h
  rw [parse_append, parse_stop (b := (d.parse a).2 ++ b) (by simp [hfail])]
  simp

/-! ## 途中で切れた流れ -/

section Blocks

variable {ι : Type*} {frame : ι → List β} {content : ι → μ}

/-- どのブロックも、後ろに何が続いても、そのブロックの内容になるか、復号できない。 -/
def Blocks (d : StreamDecoder β μ) (frame : ι → List β) (content : ι → μ) (is : List ι) : Prop :=
  ∀ i ∈ is, ∀ x, d.decode (frame i ++ x) = .frame (frame i).length (content i) ∨ d.decode (frame i ++ x) = .fail

/-- ブロックの途中までの入力からは、フレームを取り出せない。 -/
theorem Blocks.decode_short {is : List ι} (h : d.Blocks frame content is) {i : ι} (hi : i ∈ is) {s : List β}
    (hs : s <+: frame i) (hlt : s.length < (frame i).length) (n : Nat) (m : μ) : d.decode s ≠ .frame n m := by
  intro hdec
  obtain ⟨t, ht⟩ := hs
  have hle := d.frame_le hdec
  have hwhole := d.frame_append t hdec
  have hblock := h i hi []
  rw [List.append_nil, ← ht, hwhole, ht] at hblock
  rcases hblock with heq | heq
  · cases heq
    omega
  · cases heq

/-- ブロックを並べた流れのどの先頭部分からも、先頭の何ブロックかの内容だけが取り出される。そのブロックは、全部が届いている。 -/
theorem Blocks.parse {is : List ι} (h : d.Blocks frame content is) {s : List β} (hs : s <+: is.flatMap frame) :
    ∃ k, (d.parse s).1 = (is.take k).map content ∧ (is.take k).flatMap frame <+: s := by
  induction is generalizing s with
  | nil =>
      obtain rfl : s = [] := List.prefix_nil.mp hs
      exact ⟨0, by rw [parse_stop (by simp [d.nil_more])]; rfl, List.prefix_refl _⟩
  | cons i is ih =>
      have hrest : d.Blocks frame content is := fun j hj => h j (List.mem_cons_of_mem _ hj)
      rw [List.flatMap_cons] at hs
      by_cases hlt : s.length < (frame i).length
      · have hshort : s <+: frame i := List.prefix_of_prefix_length_le hs (List.prefix_append _ _) hlt.le
        have hstop := parse_stop (h.decode_short List.mem_cons_self hshort hlt)
        exact ⟨0, by rw [hstop]; rfl, List.nil_prefix⟩
      · obtain ⟨t, rfl⟩ := List.prefix_of_prefix_length_le (List.prefix_append _ _) hs (Nat.not_lt.mp hlt)
        obtain ⟨k, hk, hwhole⟩ := ih hrest ((List.prefix_append_right_inj _).mp hs)
        rcases h i List.mem_cons_self t with hdec | hdec
        · refine ⟨k + 1, ?_, ?_⟩
          · rw [parse_frame hdec, List.drop_left, hk]
            rfl
          · rw [List.take_succ_cons, List.flatMap_cons]
            exact (List.prefix_append_right_inj _).mpr hwhole
        · exact ⟨0, by rw [parse_stop (by simp [hdec])]; rfl, List.nil_prefix⟩

/-- 最後のブロックが途中までの流れでも同じである。 -/
theorem Blocks.parse_part {is : List ι} {part s : List β} (h : d.Blocks frame content is)
    (hpart : part ≠ [] → ∃ i, d.Blocks frame content [i] ∧ part <+: frame i ∧ part.length < (frame i).length)
    (hs : s <+: is.flatMap frame ++ part) :
    ∃ k, (d.parse s).1 = (is.take k).map content ∧ (is.take k).flatMap frame <+: s := by
  by_cases hnil : part = []
  · rw [hnil, List.append_nil] at hs
    exact h.parse hs
  · obtain ⟨i, hi, hprefix, hlt⟩ := hpart hnil
    have hall : d.Blocks frame content (is ++ [i]) := by
      intro j hj
      rcases List.mem_append.mp hj with hj | hj
      · exact h j hj
      · exact hi j hj
    have hflat : (is ++ [i]).flatMap frame = is.flatMap frame ++ frame i := by
      rw [List.flatMap_append, List.flatMap_singleton]
    have hwhole : s <+: (is ++ [i]).flatMap frame := hflat ▸ hs.trans ((List.prefix_append_right_inj _).mpr hprefix)
    obtain ⟨k, hk, htake⟩ := hall.parse hwhole
    have hle : k ≤ is.length := by
      by_contra hgt
      rw [List.take_of_length_le (by rw [List.length_append, List.length_singleton]; omega), hflat] at htake
      have hlen := (htake.trans hs).length_le
      rw [List.length_append, List.length_append] at hlen
      omega
    rw [List.take_append_of_le_length hle] at hk htake
    exact ⟨k, hk, htake⟩

end Blocks

/-! ## 区切りの位置 -/

/-- `s` の先頭の `k` 要素が、ちょうどフレームの並びとして取り出される。 -/
def CutsAt (d : StreamDecoder β μ) (s : List β) (k : Nat) : Prop := k ≤ s.length ∧ (d.parse (s.take k)).2 = []

theorem cutsAt_zero (s : List β) : d.CutsAt s 0 := by
  refine ⟨Nat.zero_le _, ?_⟩
  rw [List.take_zero, parse_stop (by simp [d.nil_more])]

/-- フレームを取り出せない入力の先頭からは、フレームを取り出せない。 -/
theorem decode_take_of_more {s : List β} (h : d.decode s = .more) (k : Nat) : d.decode (s.take k) = .more := by
  cases hdec : d.decode (s.take k) with
  | more => rfl
  | frame n m =>
      have := d.frame_append (s.drop k) hdec
      rw [List.take_append_drop, h] at this
      cases this
  | fail =>
      have := d.fail_append (s.drop k) hdec
      rw [List.take_append_drop, h] at this
      cases this

theorem cutsAt_of_more {s : List β} (h : d.decode s = .more) {k : Nat} : d.CutsAt s k ↔ k = 0 := by
  refine ⟨fun ⟨hle, hnil⟩ => ?_, fun hk => hk ▸ cutsAt_zero s⟩
  rw [parse_stop (by simp [decode_take_of_more h])] at hnil
  have := congrArg List.length hnil
  rw [List.length_take, List.length_nil] at this
  omega

/-- 途中までの入力では、先頭のフレームを取り出せない。 -/
theorem decode_take_of_frame {s : List β} {n : Nat} {m : μ} (h : d.decode s = .frame n m) {k : Nat} (hk : k < n) :
    d.decode (s.take k) = .more := by
  cases hdec : d.decode (s.take k) with
  | more => rfl
  | frame n' m' =>
      have hle := d.frame_le hdec
      rw [List.length_take] at hle
      have := d.frame_append (s.drop k) hdec
      rw [List.take_append_drop, h] at this
      cases this
      omega
  | fail =>
      have := d.fail_append (s.drop k) hdec
      rw [List.take_append_drop, h] at this
      cases this

theorem cutsAt_of_frame {s : List β} {n : Nat} {m : μ} (h : d.decode s = .frame n m) {k : Nat} (hk : 0 < k) :
    d.CutsAt s k ↔ n ≤ k ∧ d.CutsAt (s.drop n) (k - n) := by
  have hle := d.frame_le h
  by_cases hnk : n ≤ k
  · have htake : s.take k = s.take n ++ (s.drop n).take (k - n) := by
      rw [← List.take_add, Nat.add_sub_cancel' hnk]
    have hframe : d.decode (s.take k) = .frame n m := by
      rw [htake]
      exact d.frame_append _ (d.frame_take h)
    rw [CutsAt, CutsAt, parse_frame hframe, List.drop_take, List.length_drop]
    exact ⟨fun hcut => ⟨hnk, by omega, hcut.2⟩, fun hcut => ⟨by omega, hcut.2.2⟩⟩
  · refine iff_of_false (fun ⟨hks, hnil⟩ => ?_) (fun hcut => hnk hcut.1)
    rw [parse_stop (by simp [decode_take_of_frame h (Nat.lt_of_not_le hnk)])] at hnil
    have := congrArg List.length hnil
    rw [List.length_take, List.length_nil] at this
    omega

variable {ν : Type*} {d' : StreamDecoder β ν}

/-- 先頭部の長さ `h` と、その中で違ってもよい位置 `t`。先頭部が `t` のほかで一致する入力から、閉じない限り同じ長さのフレームを
取り出す二つの復号器は、区切りごとの位置 `t` だけが違う流れを、同じ位置で区切る。 -/
theorem cutsAt_congr {h t : Nat} (ht : t < h) (hmin : ∀ {b n m}, d.decode b = .frame n m → h ≤ n)
    (hsize : ∀ b b', b.length = b'.length → (∀ i < h, i ≠ t → b[i]? = b'[i]?) → d.decode b ≠ .fail →
      d'.decode b' ≠ .fail → (d.decode b).size? = (d'.decode b').size?)
    {s s' : List β} (hlen : s.length = s'.length) (hdiff : ∀ i, s[i]? ≠ s'[i]? → ∃ k, d.CutsAt s k ∧ i = k + t)
    (hopen : d.decode (d.parse s).2 = .more) (hopen' : d'.decode (d'.parse s').2 = .more) (k : Nat) :
    d.CutsAt s k ↔ d'.CutsAt s' k := by
  -- 流れの長さについての帰納法。先頭のフレームの長さが一致するので、残りに移れる。
  induction hn : s.length using Nat.strong_induction_on generalizing s s' k with
  | _ l ih =>
      have hfail : d.decode s ≠ .fail := by
        intro hf
        rw [parse_stop (by simp [hf]), hf] at hopen
        cases hopen
      have hfail' : d'.decode s' ≠ .fail := by
        intro hf
        rw [parse_stop (by simp [hf]), hf] at hopen'
        cases hopen'
      have hhead : ∀ i < h, i ≠ t → s[i]? = s'[i]? := by
        intro i hi hit
        by_contra hne
        obtain ⟨j, hcut, rfl⟩ := hdiff i hne
        cases hdec : d.decode s with
        | fail => exact hfail hdec
        | more => rw [(cutsAt_of_more hdec).mp hcut] at hit; omega
        | frame n m =>
            have hj : 0 < j := by omega
            have := hmin hdec
            have := ((cutsAt_of_frame hdec hj).mp hcut).1
            omega
      have hboth := hsize s s' hlen hhead hfail hfail'
      cases hdec : d.decode s with
      | fail => exact absurd hdec hfail
      | more =>
          cases hdec' : d'.decode s' with
          | fail => exact absurd hdec' hfail'
          | more => rw [cutsAt_of_more hdec, cutsAt_of_more hdec']
          | frame n m => simp [hdec, hdec', DecodeStep.size?] at hboth
      | frame n m =>
          cases hdec' : d'.decode s' with
          | fail => exact absurd hdec' hfail'
          | more => simp [hdec, hdec', DecodeStep.size?] at hboth
          | frame n' m' =>
              simp only [hdec, hdec', DecodeStep.size?, Option.some.injEq] at hboth
              subst hboth
              have hpos := d.frame_pos hdec
              have hle := d.frame_le hdec
              rcases Nat.eq_zero_or_pos k with rfl | hk
              · exact iff_of_true (cutsAt_zero s) (cutsAt_zero s')
              rw [cutsAt_of_frame hdec hk, cutsAt_of_frame hdec' hk]
              refine and_congr_right fun _ => ih (s.drop n).length ?_ ?_ ?_ ?_ ?_ _ rfl
              · rw [List.length_drop]; omega
              · rw [List.length_drop, List.length_drop, hlen]
              · intro i hne
                rw [List.getElem?_drop, List.getElem?_drop] at hne
                obtain ⟨j, hcut, hij⟩ := hdiff _ hne
                have := hmin hdec
                obtain ⟨hnj, hcut'⟩ := (cutsAt_of_frame hdec (by omega)).mp hcut
                exact ⟨j - n, hcut', by omega⟩
              · rwa [parse_frame hdec] at hopen
              · rwa [parse_frame hdec'] at hopen'

end StreamDecoder

/-! ## 断片を順に受け取る受信側 -/

/-- 未処理の入力と、復号できない入力を見て閉じたかどうか。 -/
structure Receiver (β : Type*) where
  buffer : List β
  closed : Bool

namespace Receiver

def fresh : Receiver β := ⟨[], false⟩

variable (d : StreamDecoder β μ)

/-- 断片を一つ受け取り、取り出せるだけのフレームを取り出す。閉じた後は何も取り出さない。 -/
def feed (r : Receiver β) (chunk : List β) : List μ × Receiver β :=
  if r.closed then ([], r)
  else
    let q := d.parse (r.buffer ++ chunk)
    (q.1, ⟨q.2, DecodeStep.isFail (d.decode q.2)⟩)

/-- 断片を順に受け取る。断片ごとに取り出した内容を並べる。 -/
def feedAll : Receiver β → List (List β) → List (List μ) × Receiver β
  | r, [] => ([], r)
  | r, chunk :: chunks =>
      ((feed d r chunk).1 :: (feedAll (feed d r chunk).2 chunks).1, (feedAll (feed d r chunk).2 chunks).2)

variable {d}

/-- 受信側は、これまでに受け取った `s` を一度に復号したのと同じ状態にある。閉じた後の入力は溜めない。 -/
def Agrees (d : StreamDecoder β μ) (r : Receiver β) (s : List β) : Prop :=
  r.closed = (d.decode (d.parse s).2).isFail ∧ (r.closed = false → r.buffer = (d.parse s).2)

theorem fresh_agrees : Agrees d fresh [] := by
  have hparse : d.parse [] = ([], []) := StreamDecoder.parse_stop (by simp [d.nil_more])
  simp [Agrees, fresh, hparse, d.nil_more, DecodeStep.isFail]

theorem feed_agrees {r : Receiver β} {s : List β} (h : Agrees d r s) (chunk : List β) :
    Agrees d (feed d r chunk).2 (s ++ chunk) ∧
      (d.parse (s ++ chunk)).1 = (d.parse s).1 ++ (feed d r chunk).1 := by
  obtain ⟨hclosed, hbuf⟩ := h
  cases hr : r.closed with
  | true =>
      -- 閉じているので、既に復号できない残りがある。
      have hfail : d.decode (d.parse s).2 = .fail := DecodeStep.isFail_iff.mp (hclosed ▸ hr)
      have happ := StreamDecoder.parse_fail_append chunk hfail
      have hfail' := d.fail_append chunk hfail
      simp [Agrees, feed, hr, happ, hfail', DecodeStep.isFail]
  | false =>
      have happ := StreamDecoder.parse_append (d := d) s chunk
      rw [← hbuf hr] at happ
      simp [Agrees, feed, hr, happ]

theorem feedAll_agrees {r : Receiver β} {s : List β} (h : Agrees d r s) (chunks : List (List β)) :
    Agrees d (feedAll d r chunks).2 (s ++ chunks.flatten) ∧
      (d.parse (s ++ chunks.flatten)).1 = (d.parse s).1 ++ (feedAll d r chunks).1.flatten := by
  induction chunks generalizing r s with
  | nil => simpa [feedAll] using h
  | cons chunk chunks ih =>
      obtain ⟨hstep, hmsgs⟩ := feed_agrees h chunk
      obtain ⟨hrest, hmsgs'⟩ := ih hstep
      simp only [feedAll, List.flatten_cons, ← List.append_assoc]
      exact ⟨hrest, by rw [hmsgs', hmsgs]⟩

/-- 流れをどのように区切って渡しても、取り出す内容と閉じたかどうかは、一度に復号した結果で決まる。 -/
theorem feedAll_fresh (chunks : List (List β)) :
    (feedAll d fresh chunks).1.flatten = (d.parse chunks.flatten).1 ∧
      (feedAll d fresh chunks).2.closed = (d.decode (d.parse chunks.flatten).2).isFail := by
  obtain ⟨⟨hclosed, _⟩, hmsgs⟩ := feedAll_agrees (fresh_agrees (d := d)) chunks
  have hparse : d.parse [] = ([], []) := StreamDecoder.parse_stop (by simp [d.nil_more])
  rw [List.nil_append] at hclosed hmsgs
  exact ⟨by rw [hmsgs, hparse, List.nil_append], hclosed⟩

end Receiver

end Xrpc.Lib
