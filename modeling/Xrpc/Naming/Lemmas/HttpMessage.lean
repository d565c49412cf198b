import Xrpc.Naming.Lemmas.ConsulHttpClient
import Xrpc.Naming.Lemmas.Blank

/-!
# HTTP の応答の書き方と読み込み

書いた先頭部と本体が、そのまま読まれること。
-/

namespace Xrpc.Naming
open Xrpc.Lib Xrpc.Protocol

/-! ## 先頭部 -/

namespace HeaderField

variable {f : HeaderField}

theorem line_ne (f : HeaderField) : f.line ≠ [] := by simp [line]

theorem Wf.parse (h : f.Wf) (headers : Headers) : parseHeaderLine headers f.line = headers.emplace (toLower f.name) f.value := by
  have hcolon : findPattern [58] f.line = some f.name.length := findPattern_append_of_notMem h.name_colon
  rw [parseHeaderLine, hcolon]
  simp only [line, List.take_left, drop_separator, trim_trimmed h.name_trimmed,
    trim_blank h.leading_blank h.value_trimmed h.trailing_blank]

end HeaderField

/-- 空の行は、空でない行を並べた後に、初めて現れる。 -/
theorem findPattern_blank_line {lines : List Bytes} (h : ∀ line ∈ lines, line ≠ [] ∧ 13 ∉ line) (rest : Bytes) :
    findPattern (CRLF ++ CRLF) (lines.flatMap (CRLF ++ ·) ++ (CRLF ++ (CRLF ++ rest))) =
      some (lines.flatMap (CRLF ++ ·)).length := by
  induction lines with
  | nil => exact findPattern_of_head ⟨rest, rfl⟩
  | cons line lines ih =>
      obtain ⟨hne, hcr⟩ := h line List.mem_cons_self
      have hrest := ih fun line hline => h line (List.mem_cons_of_mem _ hline)
      obtain ⟨b, tail, rfl⟩ := List.exists_cons_of_ne_nil hne
      have hskip : (13 : UInt8) ∉ 10 :: b :: tail := by
        rw [List.mem_cons, not_or]
        exact ⟨by decide, hcr⟩
      have htext : ((b :: tail) :: lines).flatMap (CRLF ++ ·) ++ (CRLF ++ (CRLF ++ rest)) =
          13 :: ((10 :: b :: tail) ++ (lines.flatMap (CRLF ++ ·) ++ (CRLF ++ (CRLF ++ rest)))) := by
        simp [CRLF]
      have hhead : ¬ CRLF ++ CRLF <+:
          13 :: ((10 :: b :: tail) ++ (lines.flatMap (CRLF ++ ·) ++ (CRLF ++ (CRLF ++ rest)))) := by
        rintro ⟨t, ht⟩
        have hb : (13 : UInt8) = b := (List.cons.inj (List.cons.inj (List.cons.inj ht).2).2).1
        exact hcr (hb ▸ List.mem_cons_self)
      have hpattern : CRLF ++ CRLF = 13 :: [10, 13, 10] := rfl
      rw [htext, findPattern, if_neg hhead, hpattern, findPattern_skip hskip, ← hpattern, hrest, Option.map_some,
        Option.map_some]
      congr 1
      simp only [List.flatMap_cons, CRLF, List.length_append, List.length_cons, List.length_nil]
      omega

theorem parseHeaderLines_fields {f : HeaderField} {fields : List HeaderField} (hf : f.Wf) (h : ∀ g ∈ fields, g.Wf)
    (headers : Headers) :
    parseHeaderLines (f.line ++ fields.flatMap fun g => CRLF ++ g.line) headers =
      (f :: fields).foldl (fun headers g => headers.emplace (toLower g.name) g.value) headers := by
  induction fields generalizing f headers with
  | nil =>
      have hnone : findPattern CRLF f.line = none := findPattern_of_notMem hf.line_cr
      rw [List.flatMap_nil, List.append_nil, parseHeaderLines, if_neg (by simpa using f.line_ne)]
      split
      next => exact hf.parse headers
      next heq => rw [hnone] at heq; cases heq
  | cons g fields ih =>
      have hsome : findPattern CRLF (f.line ++ (CRLF ++ (g.line ++ fields.flatMap fun g => CRLF ++ g.line))) =
          some f.line.length := findPattern_append_of_notMem hf.line_cr
      rw [List.flatMap_cons, List.append_assoc, parseHeaderLines, if_neg (by simp [f.line_ne])]
      split
      next heq => rw [hsome] at heq; cases heq
      next lineEnd heq =>
        rw [hsome] at heq
        cases heq
        have hdrop : (f.line ++ (CRLF ++ (g.line ++ fields.flatMap fun g => CRLF ++ g.line))).drop (f.line.length + 2) =
            g.line ++ fields.flatMap fun g => CRLF ++ g.line := by
          rw [← List.drop_drop, List.drop_left]
          rfl
        rw [hdrop, List.take_left, hf.parse]
        exact ih (h g List.mem_cons_self) (fun g' hg' => h g' (List.mem_cons_of_mem _ hg')) _

theorem lookup_emplace (headers : Headers) (name value k : Bytes) :
    (headers.emplace name value).lookup k = (headers.lookup k).or (if k = name then some value else none) := by
  rw [Headers.emplace]
  split
  next v hv =>
    by_cases hk : k = name
    · rw [hk, hv]; rfl
    · rw [if_neg hk, Option.or_none]
  next hnone =>
    rw [List.lookup_append]
    congr 1
    rw [List.lookup_cons, List.lookup_nil]
    by_cases hk : k = name
    · simp [hk]
    · simp [hk, beq_false_of_ne hk]

namespace Head

variable {h : Head}

/-- 読んだ一覧を名前で引くと、最初の行の値になる。 -/
theorem lookup_headers (h : Head) (name : String) : h.headers.lookup (text name) = h.value name := by
  have hfold : ∀ (fields : List HeaderField) (headers : Headers),
      (fields.foldl (fun headers f => headers.emplace (toLower f.name) f.value) headers).lookup (text name) =
        (headers.lookup (text name)).or ((fields.find? fun f => toLower f.name = text name).map (·.value)) := by
    intro fields
    induction fields with
    | nil => intro headers; simp
    | cons f fields ih =>
        intro headers
        rw [List.foldl_cons, ih, lookup_emplace, Option.or_assoc, List.find?_cons]
        congr 1
        by_cases hname : toLower f.name = text name
        · simp [hname]
        · simp [hname, Ne.symm hname]
  rw [headers, hfold, value]
  rfl

theorem Wf.parseStatusLine (hwf : h.Wf) : parseStatusLine h.statusLine = .ok (digitsValue 10 h.code) := by
  have hfirst : findPattern [32] h.statusLine = some h.version.length := findPattern_append_of_notMem hwf.version_space
  have hcode : (32 : UInt8) ∉ h.code := notMem_numeral (by decide) hwf.code_numeral (by decide)
  have hsecond : findPattern [32] (h.code ++ 32 :: h.reason) = some h.code.length := findPattern_append_of_notMem hcode
  have hread : fromChars 10 INT_MIN INT_MAX h.code = .value (digitsValue 10 h.code) [] :=
    fromChars_numeral (by decide) hwf.code_numeral (by decide) hwf.code_le
  rw [Naming.parseStatusLine, hfirst]
  simp only [statusLine, drop_separator, hsecond, List.take_left, hread]

theorem Wf.parseHeaderBlock (hwf : h.Wf) : parseHeaderBlock h.block = .ok ((digitsValue 10 h.code : Int), h.headers) := by
  have hstatus := hwf.parseStatusLine
  rw [Naming.parseHeaderBlock, block]
  cases hfields : h.fields with
  | nil =>
      have hnone : findPattern CRLF h.statusLine = none := findPattern_of_notMem hwf.status_cr
      rw [List.flatMap_nil, List.append_nil, hnone]
      simp only [hstatus, Except.map, headers, hfields, List.foldl_nil]
  | cons f fields =>
      have hsome : findPattern CRLF (h.statusLine ++ (CRLF ++ (f.line ++ fields.flatMap fun g => CRLF ++ g.line))) =
          some h.statusLine.length := findPattern_append_of_notMem hwf.status_cr
      have hdrop : (h.statusLine ++ (CRLF ++ (f.line ++ fields.flatMap fun g => CRLF ++ g.line))).drop
          (h.statusLine.length + 2) = f.line ++ fields.flatMap fun g => CRLF ++ g.line := by
        rw [← List.drop_drop, List.drop_left]
        rfl
      have hwf' := hwf.fields_wf
      rw [hfields] at hwf'
      rw [List.flatMap_cons, List.append_assoc, hsome]
      simp only [List.take_left, hstatus, Except.map, hdrop]
      rw [parseHeaderLines_fields (hwf' f List.mem_cons_self) fun g hg => hwf' g (List.mem_cons_of_mem _ hg), headers, hfields]

/-- 先頭部は、その終わりまで読まれる。 -/
theorem Wf.findPattern_block (hwf : h.Wf) (rest : Bytes) :
    findPattern (CRLF ++ CRLF) (h.block ++ (CRLF ++ (CRLF ++ rest))) = some h.block.length := by
  have hlines : ∀ line ∈ h.fields.map HeaderField.line, line ≠ [] ∧ 13 ∉ line := by
    intro line hline
    obtain ⟨f, hf, rfl⟩ := List.mem_map.mp hline
    exact ⟨f.line_ne, (hwf.fields_wf f hf).line_cr⟩
  have hblock : h.block = h.statusLine ++ (h.fields.map HeaderField.line).flatMap (CRLF ++ ·) := by
    rw [block, List.flatMap_map]
  have hpattern : CRLF ++ CRLF = 13 :: [10, 13, 10] := rfl
  rw [hblock, List.append_assoc, hpattern, findPattern_skip hwf.status_cr, ← hpattern, findPattern_blank_line hlines]
  simp

end Head

/-! ## 断片に分けた本体 -/

theorem parseSizeOr_numeral {base : Nat} {digits : Bytes} (hbase : base ≤ 36) (h : Numeral base digits)
    (hle : digitsValue base digits ≤ SIZE_MAX) (message : String) :
    parseSizeOr base message digits = .ok (digitsValue base digits) := by
  have hread : fromChars base 0 SIZE_MAX digits = .value (digitsValue base digits) [] :=
    fromChars_numeral hbase h le_rfl (by exact_mod_cast hle)
  rw [parseSizeOr, hread]
  rfl

theorem parseChunkSize_line {size extension : Bytes} (h : Numeral 16 size) (hle : digitsValue 16 size ≤ SIZE_MAX)
    (hext : ChunkExtension extension) : parseChunkSize (size ++ extension) = .ok (digitsValue 16 size) := by
  have hsemicolon : (59 : UInt8) ∉ size := notMem_numeral (by decide) h (by decide)
  have htrimmed := trimmed_numeral (by decide) h
  obtain ⟨rfl | ⟨ws, rest, hws, rfl⟩, -⟩ := hext
  · have hnone : findPattern [59] size = none := findPattern_of_notMem hsemicolon
    rw [List.append_nil, parseChunkSize]
    simp only [hnone]
    rw [trim_trimmed htrimmed, parseSizeOr_numeral (by decide) h hle]
  · have hsome : findPattern [59] (size ++ ws ++ 59 :: rest) = some (size ++ ws).length := by
      refine findPattern_append_of_notMem ?_
      rw [List.mem_append, not_or]
      exact ⟨hsemicolon, hws.notMem (by decide)⟩
    rw [← List.append_assoc, parseChunkSize]
    simp only [hsome, List.take_left]
    rw [trim_append_blank _ hws, trim_trimmed htrimmed, parseSizeOr_numeral (by decide) h hle]

/-- 大きさの行の終わりは、最初の改行である。 -/
theorem findPattern_size_line {size extension : Bytes} (h : Numeral 16 size) (hext : ¬ CRLF <:+: extension) (rest : Bytes) :
    findPattern CRLF (size ++ (extension ++ (CRLF ++ rest))) = some (size ++ extension).length := by
  have hcr : (13 : UInt8) ∉ size := notMem_numeral (by decide) h (by decide)
  have hpair : findPattern CRLF (extension ++ (CRLF ++ rest)) = some extension.length :=
    findPattern_pair_append (by decide) hext
  have hpattern : CRLF = 13 :: [10] := rfl
  rw [hpattern] at hpair ⊢
  rw [findPattern_skip hcr, hpair, List.length_append]
  rfl

theorem readChunkedBody_chunked {stream body : Bytes} (h : ChunkedAs stream body) (failure : Option Status) (acc : Bytes) :
    readChunkedBody (ended failure) stream acc = .ok (acc ++ body) := by
  induction h generalizing acc with
  | @last size extension trailer hsize hzero hext =>
      have hline := findPattern_size_line hsize hext.2 trailer
      rw [readChunkedBody_of_ok (readUntil_ended_ok hline failure), ← List.append_assoc, List.take_left,
        parseChunkSize_line hsize (by omega) hext, hzero]
      show readChunk _ _ acc 0 = _
      rw [readChunk, if_pos rfl, List.append_nil]
  | @chunk size extension data stream body hsize hlength hne hle hext _ ih =>
      have hline := findPattern_size_line hsize hext.2 (data ++ (CRLF ++ stream))
      have hdrop : (size ++ (extension ++ (CRLF ++ (data ++ (CRLF ++ stream))))).drop ((size ++ extension).length + 2) =
          data ++ (CRLF ++ stream) := by
        rw [← List.append_assoc, ← List.drop_drop, List.drop_left]
        rfl
      have hpos : 0 < data.length := List.length_pos_iff.mpr hne
      have hfound : atLeast (data.length + 2) (data ++ (CRLF ++ stream)) = some () := by
        rw [atLeast, if_pos]
        simp only [List.length_append, CRLF, List.length_cons, List.length_nil]
        omega
      have hrest : (data ++ (CRLF ++ stream)).drop (data.length + 2) = stream := by
        rw [← List.drop_drop, List.drop_left]
        rfl
      rw [readChunkedBody_of_ok (readUntil_ended_ok hline failure), hdrop, ← List.append_assoc size, List.take_left,
        parseChunkSize_line hsize (by rw [hlength]; omega) hext, hlength]
      show readChunk _ _ acc data.length = _
      rw [readChunk, if_neg (by omega), if_neg (by omega), readUntil_ended_ok hfound]
      simp only [List.drop_left, List.take_left, hrest]
      have hterminator : (CRLF ++ stream).take 2 = CRLF := rfl
      rw [if_neg (not_not.mpr hterminator), ih, List.append_assoc]

/-- 先頭部の定める書き方の本体は、そのまま読まれる。 -/
theorem Head.Frames.readBody {h : Head} {stream body : Bytes} (hframes : h.Frames stream body) :
    readBody (ended none) h.headers stream = .ok body := by
  rw [Naming.readBody, h.lookup_headers, h.lookup_headers]
  cases hframes with
  | @chunked coding _ _ hcoding hinfix hchunked =>
      rw [hcoding]
      cases hfound : findPattern (text "chunked") (toLower coding) with
      | none => exact absurd hinfix (findPattern_eq_none_iff.mp hfound)
      | some n =>
          simp only [hfound]
          rw [readChunkedBody_chunked hchunked, List.nil_append]
  | @contentLength length _ surplus hcoding hlength hnumeral hvalue hle =>
      have hfound : atLeast body.length (body ++ surplus) = some () := by
        rw [atLeast, if_pos (by rw [List.length_append]; omega)]
      rw [hcoding, hlength]
      simp only [parseContentLength]
      rw [parseSizeOr_numeral (by decide) hnumeral (by omega), hvalue]
      simp only [readContentLengthBody]
      rw [readUntil_ended_ok hfound]
      simp only [List.take_left]
  | close hcoding hlength => rw [hcoding, hlength]; rfl
  | @closeCoded coding _ hcoding hinfix =>
      rw [hcoding]
      simp only [findPattern_eq_none_iff.mpr hinfix]
      rfl

/-- 書いた応答は、どのように切っても、そのまま読まれる。 -/
theorem readResponse_framed {h : Head} {stream body : Bytes} (hwf : h.Wf) (hframes : h.Frames stream body)
    {socket : Incoming} (hproper : socket.Proper) (hfailure : socket.failure = none)
    (hdata : socket.data = h.block ++ (CRLF ++ (CRLF ++ stream))) :
    readResponse socket = .ok ⟨(digitsValue 10 h.code : Int), h.headers, body⟩ := by
  have hdrop : (h.block ++ (CRLF ++ (CRLF ++ stream))).drop (h.block.length + 4) = stream := by
    rw [← List.drop_drop, List.drop_left]
    rfl
  rw [readResponse_eq hproper, hdata, hwf.findPattern_block, hfailure]
  simp only [List.take_left, hwf.parseHeaderBlock, hdrop, Except.bind, hframes.readBody, Except.map]

end Xrpc.Naming
