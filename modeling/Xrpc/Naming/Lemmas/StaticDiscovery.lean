import Xrpc.Naming.StaticDiscovery
import Xrpc.Naming.Lemmas.Canonical
import Xrpc.Naming.Lemmas.Blank

/-!
# 固定の接続先の解釈

欄の書き方と `ParseEndpoint` が一致すること、`ParseListTarget` が `,` で分けた欄をすべて読むこと。
-/

namespace Xrpc.Naming
open Xrpc.Lib Xrpc.Protocol

/-! ## 欄 -/

theorem parsePortOr_eq_ok_iff {message : String} {portText : Bytes} {port : UInt16} :
    parsePortOr message portText = .ok port ↔
      Numeral 10 portText ∧ digitsValue 10 portText = port.toNat ∧ 0 < port := by
  have hlt := port.toNat_lt
  constructor
  · intro h
    rw [parsePortOr] at h
    split at h
    next parsedPort hread =>
      split_ifs at h with hrange
      rw [not_or] at hrange
      obtain ⟨hnumeral, hvalue, -⟩ := numeral_of_fromChars hread (.inl (by omega))
      cases h
      have hnat : parsedPort.toNat = digitsValue 10 portText := by omega
      rw [hnat]
      have hmod : (UInt16.ofNat (digitsValue 10 portText)).toNat = digitsValue 10 portText := by
        rw [UInt16.toNat_ofNat']
        omega
      refine ⟨hnumeral, hmod.symm, ?_⟩
      rw [UInt16.lt_iff_toNat_lt, hmod]
      show 0 < digitsValue 10 portText
      omega
    next => cases h
  · rintro ⟨hnumeral, hvalue, hpos⟩
    have hread : fromChars 10 INT_MIN INT_MAX portText = .value (digitsValue 10 portText) [] :=
      fromChars_numeral (by decide) hnumeral (by decide) (by rw [hvalue, INT_MAX]; omega)
    have hpos' : 0 < port.toNat := UInt16.lt_iff_toNat_lt.mp hpos
    rw [parsePortOr, hread]
    simp only [hvalue]
    rw [if_neg (by omega), Int.toNat_natCast, UInt16.ofNat_toNat]

/-- `ParseEndpoint` が受け付けるのは、書ける欄だけである。 -/
theorem parseEndpoint_eq_ok_iff {field : Bytes} {endpoint : Endpoint} :
    parseEndpoint field = .ok endpoint ↔
      endpoint.host ≠ [] ∧ Trimmed isSpace endpoint.host ∧ 0 < endpoint.port ∧ endpoint.WrittenAs field := by
  constructor
  · intro h
    simp only [parseEndpoint] at h
    split at h
    next => cases h
    next colon hcolon =>
      split_ifs at h with hbound hempty
      rw [not_or] at hempty
      split at h
      next => cases h
      next parsedPort hport =>
        cases h
        obtain ⟨hnumeral, hvalue, hpos⟩ := parsePortOr_eq_ok_iff.mp hport
        -- 切り落とした空白を、順に戻す
        obtain ⟨leading, trailing, hfield, hleading, htrailing⟩ := exists_trimBy isSpace field
        obtain ⟨hostText, portText, hsplit, -, rfl⟩ := rfind_eq_some hcolon
        rw [hsplit, List.take_left] at hempty ⊢
        rw [drop_separator] at hempty
        rw [hsplit, drop_separator] at hnumeral hvalue
        obtain ⟨a, afterHost, hhost, ha, hafter⟩ := exists_trimBy isSpace hostText
        obtain ⟨beforePort, b, hport', hbefore, hb⟩ := exists_trimBy isSpace portText
        refine ⟨by simpa using hempty.1, trimmed_trimBy _ _, hpos, leading ++ a, afterHost, beforePort, _, b ++ trailing,
          ?_, hafter, hbefore, ?_, hnumeral, hvalue, ?_⟩
        · intro x hx
          exact (List.mem_append.mp hx).elim (hleading x) (ha x)
        · intro x hx
          exact (List.mem_append.mp hx).elim (hb x) (htrailing x)
        · conv_lhs => rw [hfield, show trimBy isSpace field = trim field from rfl, hsplit, hhost, hport']
          simp only [trim, List.append_assoc, List.cons_append]
  · rintro ⟨hne, htrim, hpos, leading, afterHost, beforePort, port, trailing, hleading, hafter, hbefore, htrailing,
      hnumeral, hvalue, rfl⟩
    have hcolon : (58 : UInt8) ∉ beforePort ++ port := by
      rw [List.mem_append, not_or]
      exact ⟨hbefore.notMem (by decide), notMem_numeral (by decide) hnumeral (by decide)⟩
    have hfield : trim (leading ++ (endpoint.host ++ (afterHost ++ (58 :: (beforePort ++ (port ++ trailing)))))) =
        (endpoint.host ++ afterHost) ++ 58 :: (beforePort ++ port) := by
      have hassoc : leading ++ (endpoint.host ++ (afterHost ++ (58 :: (beforePort ++ (port ++ trailing))))) =
          leading ++ (((endpoint.host ++ afterHost) ++ 58 :: (beforePort ++ port)) ++ trailing) := by
        simp only [List.append_assoc, List.cons_append]
      rw [hassoc]
      refine trimBy_append hleading ⟨fun a ha => htrim.1 a ?_, fun a ha => (trimmed_numeral (by decide) hnumeral).2 a ?_⟩ htrailing
      · rw [List.append_assoc, List.head?_append_of_ne_nil _ hne] at ha
        exact ha
      · rw [← List.singleton_append, ← List.append_assoc, ← List.append_assoc,
          List.getLast?_append_of_ne_nil _ hnumeral.1] at ha
        exact ha
    have hhost : trim (endpoint.host ++ afterHost) = endpoint.host := trim_blank blank_nil htrim hafter
    have hport : trim (beforePort ++ port) = port := by
      have := trim_blank hbefore (trimmed_numeral (by decide) hnumeral) blank_nil
      rwa [List.append_nil] at this
    have hlength : 0 < endpoint.host.length := List.length_pos_iff.mpr hne
    have hlength' : 0 < port.length := List.length_pos_iff.mpr hnumeral.1
    simp only [parseEndpoint, hfield, rfind_append hcolon]
    rw [if_neg (by simp only [List.length_append, List.length_cons]; omega), List.take_left,
      drop_separator, hhost, hport, if_neg (by simp [hne, hnumeral.1]), parsePort, parsePortOr_eq_ok_iff.mpr ⟨hnumeral, hvalue, hpos⟩]

/-! ## 目標 -/

theorem splitOn_of_find {rest : Bytes} {comma : Nat} (h : findPattern [44] rest = some comma) :
    rest.splitOn 44 = rest.take comma :: (rest.drop (comma + 1)).splitOn 44 := by
  have hsplit := findPattern_split h
  have hcomma := findPattern_singleton h
  conv_lhs => rw [hsplit, List.singleton_append]
  refine List.splitOnP_append_cons_of_forall_mem (fun x hx => ?_) 44 (by decide) _
  exact beq_eq_false_iff_ne.mpr fun heq => hcomma (heq ▸ hx)

theorem notMem_of_mem_splitOn (rest : Bytes) : ∀ field ∈ rest.splitOn 44, 44 ∉ field := by
  induction hlength : rest.length using Nat.strong_induction_on generalizing rest with
  | _ n ih =>
      cases hfind : findPattern [44] rest with
      | none =>
          have hcomma := notMem_of_findPattern_none hfind
          rw [List.splitOn_eq_singleton hcomma]
          intro field hfield
          rw [List.mem_singleton.mp hfield]
          exact hcomma
      | some comma =>
          have hle : comma + 1 ≤ rest.length := findPattern_le hfind
          rw [splitOn_of_find hfind]
          intro field hfield
          rcases List.mem_cons.mp hfield with rfl | htail
          · exact findPattern_singleton hfind
          · exact ih _ (by simp only [List.length_drop]; omega) _ rfl field htail

/-- どの欄も読めれば、順に並べる。 -/
theorem parseFields_eq_ok_iff {rest : Bytes} {endpoints result : List Endpoint} :
    parseFields rest endpoints = .ok result ↔
      ∃ parsed, result = endpoints ++ parsed ∧
        List.Forall₂ (fun field endpoint => parseEndpoint field = .ok endpoint) (rest.splitOn 44) parsed := by
  fun_induction parseFields rest endpoints with
  | case1 rest endpoints hnone status hfail =>
      rw [List.splitOn_eq_singleton (notMem_of_findPattern_none hnone)]
      refine ⟨nofun, ?_⟩
      rintro ⟨parsed, -, hall⟩
      cases hall with
      | cons hfirst _ => rw [hfail] at hfirst; cases hfirst
  | case2 rest endpoints hnone endpoint hok =>
      rw [List.splitOn_eq_singleton (notMem_of_findPattern_none hnone)]
      constructor
      · intro h
        cases h
        exact ⟨[endpoint], rfl, .cons hok .nil⟩
      · rintro ⟨parsed, rfl, hall⟩
        cases hall with
        | cons hfirst htail =>
            cases htail
            rw [hok] at hfirst
            cases hfirst
            rfl
  | case3 rest endpoints comma hcomma status hfail =>
      rw [splitOn_of_find hcomma]
      refine ⟨nofun, ?_⟩
      rintro ⟨parsed, -, hall⟩
      cases hall with
      | cons hfirst _ => rw [hfail] at hfirst; cases hfirst
  | case4 rest endpoints comma hcomma endpoint hok ih =>
      rw [splitOn_of_find hcomma, ih]
      constructor
      · rintro ⟨parsed, rfl, hall⟩
        exact ⟨endpoint :: parsed, by simp, .cons hok hall⟩
      · rintro ⟨parsed, rfl, hall⟩
        cases hall with
        | cons hfirst htail =>
            rw [hok] at hfirst
            cases hfirst
            exact ⟨_, by simp, htail⟩

theorem Endpoint.WrittenAs.notMem_comma {endpoint : Endpoint} {field : Bytes} (h : endpoint.WrittenAs field)
    (hhost : 44 ∉ endpoint.host) : 44 ∉ field := by
  obtain ⟨leading, afterHost, beforePort, port, trailing, hleading, hafter, hbefore, htrailing, hnumeral, -, rfl⟩ := h
  have hspace : isSpace 44 = false := by decide
  simp only [List.mem_append, List.mem_cons, not_or]
  exact ⟨hleading.notMem hspace, hhost, hafter.notMem hspace, by decide, hbefore.notMem hspace,
    notMem_numeral (by decide) hnumeral (by decide), htrailing.notMem hspace⟩

theorem Endpoint.WrittenAs.mem_of_mem_host {endpoint : Endpoint} {field : Bytes} (h : endpoint.WrittenAs field) {b : UInt8}
    (hb : b ∈ endpoint.host) : b ∈ field := by
  obtain ⟨leading, afterHost, beforePort, port, trailing, -, -, -, -, -, -, rfl⟩ := h
  simp [hb]

/-- 書いた欄をつないだものは、書いた順に読まれる。 -/
theorem parseFields_written {endpoints : List Endpoint} {fields : List Bytes} (hne : endpoints ≠ [])
    (hlist : ∀ endpoint ∈ endpoints, endpoint.Listable) (hwritten : List.Forall₂ Endpoint.WrittenAs endpoints fields) :
    parseFields ([44].intercalate fields) [] = .ok endpoints := by
  have hboth : List.Forall₂ (fun endpoint field => endpoint.Listable ∧ endpoint.WrittenAs field) endpoints fields :=
    (List.forall₂_and_left _ _).mpr ⟨hlist, hwritten⟩
  have hcomma : ∀ field ∈ fields, (44 : UInt8) ∉ field := by
    clear hne hlist hwritten
    induction hboth with
    | nil => nofun
    | cons h _ ih =>
        intro field hfield
        rcases List.mem_cons.mp hfield with rfl | htail
        · exact h.2.notMem_comma h.1.host_comma
        · exact ih field htail
  have hfields : fields ≠ [] := by
    rintro rfl
    cases hwritten
    exact hne rfl
  rw [parseFields_eq_ok_iff, List.splitOn_intercalate 44 hcomma hfields]
  refine ⟨endpoints, rfl, (hboth.imp fun endpoint field h => ?_).flip⟩
  exact parseEndpoint_eq_ok_iff.mpr ⟨h.1.host_ne, h.1.host_trimmed, h.1.port_pos, h.2⟩

/-- 右に空白を足しても、欄は変わらない。 -/
theorem parseFields_append_blank {ws : Bytes} (hws : Blank ws) (rest : Bytes) (endpoints : List Endpoint) :
    parseFields (rest ++ ws) endpoints = parseFields rest endpoints := by
  have hendpoint : ∀ field, parseEndpoint (field ++ ws) = parseEndpoint field := by
    intro field
    simp only [parseEndpoint, trim_append_blank field hws]
  have hcomma : (44 : UInt8) ∉ ws := hws.notMem (by decide)
  fun_induction parseFields rest endpoints with
  | case1 rest endpoints hnone status hfail =>
      have hnone' : findPattern [44] (rest ++ ws) = none :=
        findPattern_of_notMem (by simp [notMem_of_findPattern_none hnone, hcomma])
      rw [parseFields]
      split
      next => rw [hendpoint, hfail]
      next heq => rw [hnone'] at heq; cases heq
  | case2 rest endpoints hnone endpoint hok =>
      have hnone' : findPattern [44] (rest ++ ws) = none :=
        findPattern_of_notMem (by simp [notMem_of_findPattern_none hnone, hcomma])
      rw [parseFields]
      split
      next => rw [hendpoint, hok]
      next heq => rw [hnone'] at heq; cases heq
  | case3 rest endpoints comma hfound status hfail =>
      have hle : comma + 1 ≤ rest.length := findPattern_le hfound
      rw [parseFields]
      split
      next heq => rw [findPattern_append hfound] at heq; cases heq
      next heq =>
        rw [findPattern_append hfound] at heq
        cases heq
        rw [List.take_append_of_le_length (by omega), hfail]
  | case4 rest endpoints comma hfound endpoint hok ih =>
      have hle : comma + 1 ≤ rest.length := findPattern_le hfound
      rw [parseFields]
      split
      next heq => rw [findPattern_append hfound] at heq; cases heq
      next heq =>
        rw [findPattern_append hfound] at heq
        cases heq
        rw [List.take_append_of_le_length (by omega), hok]
        show parseFields ((rest ++ ws).drop (comma + 1)) _ = _
        rw [List.drop_append_of_le_length hle, ih]

theorem parseFields_ne_nil {rest : Bytes} {endpoints : List Endpoint} (h : parseFields rest [] = .ok endpoints) :
    endpoints ≠ [] := by
  obtain ⟨parsed, rfl, hall⟩ := parseFields_eq_ok_iff.mp h
  intro hnil
  have hlength := hall.length_eq
  rw [hnil] at hlength
  exact List.splitOn_ne_nil 44 rest (List.length_eq_zero_iff.mp hlength)

theorem parseListTarget_scheme (rest : Bytes) :
    parseListTarget (LIST_SCHEME ++ rest) = (parseFields rest []).map canonicalizeEndpoints := by
  rw [parseListTarget, List.drop_left]
  cases hparse : parseFields rest [] with
  | error status => rfl
  | ok endpoints =>
      have hne := parseFields_ne_nil hparse
      simp only [Except.map]
      rw [if_neg (by simpa using hne)]

theorem makeServiceDiscovery_list {target rest : Bytes} (h : trim target = LIST_SCHEME ++ rest) (consulAddress : Bytes) :
    makeServiceDiscovery target consulAddress =
      (parseFields rest []).map fun endpoints => .static (canonicalizeEndpoints endpoints) := by
  simp only [makeServiceDiscovery, h, List.prefix_append, ↓reduceIte, parseListTarget_scheme]
  cases parseFields rest [] <;> rfl

/-- 両側の空白を切り落とすと、`list://` から始まり、右の空白だけが失われる。 -/
theorem exists_trim_scheme {before : Bytes} (hbefore : Blank before) (rest : Bytes) :
    ∃ rest' ws, trim (before ++ (LIST_SCHEME ++ rest)) = LIST_SCHEME ++ rest' ∧ rest = rest' ++ ws ∧ Blank ws := by
  obtain ⟨ws, hws⟩ := List.rdropWhile_prefix isSpace rest
  have hblank : Blank ws := by
    intro b hb
    have hrev : rest = rest.rdropWhile isSpace ++ (rest.reverse.takeWhile isSpace).reverse := by
      rw [List.rdropWhile, ← List.reverse_append, List.takeWhile_append_dropWhile, List.reverse_reverse]
    have heq := List.append_cancel_left (hws.trans hrev)
    rw [heq, List.mem_reverse] at hb
    exact List.mem_takeWhile_imp hb
  refine ⟨rest.rdropWhile isSpace, ws, ?_, hws.symm, hblank⟩
  conv_lhs => rw [← hws, ← List.append_assoc LIST_SCHEME]
  refine trimBy_append hbefore ⟨fun a ha => ?_, fun a ha => ?_⟩ hblank
  · rw [List.head?_append_of_ne_nil _ (by decide)] at ha
    have hfirst : LIST_SCHEME.head? = some 108 := by decide
    rw [hfirst] at ha
    cases ha
    decide
  · rw [List.getLast?_append] at ha
    cases hlast : (rest.rdropWhile isSpace).getLast? with
    | some b =>
        rw [hlast] at ha
        cases ha
        rw [List.getLast?_eq_some_getLast (by rintro hnil; rw [hnil] at hlast; cases hlast)] at hlast
        rw [← Option.some.inj hlast, ← Bool.not_eq_true]
        exact List.rdropWhile_last_not isSpace rest _
    | none =>
        have hscheme : LIST_SCHEME.getLast? = some 47 := by decide
        rw [hlast, hscheme] at ha
        cases ha
        decide

end Xrpc.Naming
