import Xrpc.Protocol.FrameHeader

/-!
# 先頭部の配置と往復

先頭部の符号化と復号は、ホストのバイト順によらず、同じ配置を読み書きする。
-/

namespace Xrpc.Protocol
open Xrpc.Lib

/-! ## 整数の変換 -/

/-- 変換した値をそのまま写すと、上位のバイトから並ぶ。 -/
theorem nativeBytes_htonl (e : Endian) (x : UInt32) :
    nativeBytes e 4 (htonl e x).toNat = beBytes 4 x.toNat := by
  cases e with
  | big => rfl
  | little =>
      have hlen : (leBytes 4 x.toNat).length = 4 := by simp
      have hlt : ofBeBytes (leBytes 4 x.toNat) < 2 ^ 32 := ofBeBytes_lt hlen
      have hback := beBytes_ofBeBytes hlen
      simp only [nativeBytes, htonl, UInt32.toNat_ofNat', Nat.mod_eq_of_lt hlt]
      rw [beBytes, List.reverse_eq_iff] at hback
      exact hback

theorem nativeBytes_htons (e : Endian) (x : UInt16) :
    nativeBytes e 2 (htons e x).toNat = beBytes 2 x.toNat := by
  cases e with
  | big => rfl
  | little =>
      have hlen : (leBytes 2 x.toNat).length = 2 := by simp
      have hlt : ofBeBytes (leBytes 2 x.toNat) < 2 ^ 16 := ofBeBytes_lt hlen
      have hback := beBytes_ofBeBytes hlen
      simp only [nativeBytes, htons, UInt16.toNat_ofNat', Nat.mod_eq_of_lt hlt]
      rw [beBytes, List.reverse_eq_iff] at hback
      exact hback

/-- 二つの半分を入れ替えて並べた値。 -/
theorem hostToNetwork64_little_toNat (x : UInt64) :
    (hostToNetwork64 .little x).toNat =
      (htonl .little (x >>> 32).toUInt32).toNat +
        256 ^ 4 * (htonl .little (x &&& 0xFFFFFFFF).toUInt32).toNat := by
  generalize hhi : htonl .little (x >>> 32).toUInt32 = hi
  generalize hlo : htonl .little (x &&& 0xFFFFFFFF).toUInt32 = lo
  have hhi' : hi.toNat < 2 ^ 32 := hi.toNat_lt
  have hlo' : lo.toNat < 2 ^ 32 := lo.toNat_lt
  have hshift : (lo.toNat <<< 32) % 2 ^ 64 = 2 ^ 32 * lo.toNat := by
    rw [Nat.shiftLeft_eq]; omega
  simp only [hostToNetwork64, hhi, hlo, UInt64.toNat_or, UInt64.toNat_shiftLeft, UInt32.toNat_toUInt64]
  rw [show (32 : UInt64).toNat % 64 = 32 from rfl, hshift, ← Nat.two_pow_add_eq_or_of_lt hhi']
  omega

theorem nativeBytes_hostToNetwork64 (e : Endian) (x : UInt64) :
    nativeBytes e 8 (hostToNetwork64 e x).toNat = beBytes 8 x.toNat := by
  cases e with
  | big => rfl
  | little =>
      have hhi := nativeBytes_htonl .little (x >>> 32).toUInt32
      have hlo := nativeBytes_htonl .little (x &&& 0xFFFFFFFF).toUInt32
      have hx : x.toNat < 2 ^ 64 := x.toNat_lt
      have hhi' : (x >>> 32).toUInt32.toNat = x.toNat / 2 ^ 32 := by
        simp only [UInt64.toNat_toUInt32, UInt64.toNat_shiftRight]
        rw [show (32 : UInt64).toNat % 64 = 32 from rfl, Nat.shiftRight_eq_div_pow]
        omega
      have hlo' : (x &&& 0xFFFFFFFF).toUInt32.toNat = x.toNat % 2 ^ 32 := by
        simp only [UInt64.toNat_toUInt32, UInt64.toNat_and]
        rw [show (0xFFFFFFFF : UInt64).toNat = 2 ^ 32 - 1 from rfl, Nat.and_two_pow_sub_one_eq_mod]
        omega
      have hsplit : x.toNat = x.toNat % 2 ^ 32 + 256 ^ 4 * (x.toNat / 2 ^ 32) := by omega
      calc nativeBytes .little 8 (hostToNetwork64 .little x).toNat
          = leBytes (4 + 4) ((htonl .little (x >>> 32).toUInt32).toNat +
              256 ^ 4 * (htonl .little (x &&& 0xFFFFFFFF).toUInt32).toNat) := by
            rw [hostToNetwork64_little_toNat]; rfl
        _ = beBytes 4 (x.toNat / 2 ^ 32) ++ beBytes 4 (x.toNat % 2 ^ 32) := by
            rw [leBytes_add (UInt32.toNat_lt _), ← hhi', ← hlo', ← hhi, ← hlo]; rfl
        _ = beBytes (4 + 4) (x.toNat % 2 ^ 32 + 256 ^ 4 * (x.toNat / 2 ^ 32)) := by
            exact (beBytes_add (Nat.mod_lt _ (by decide))).symm
        _ = beBytes 8 x.toNat := by rw [← hsplit]

/-- 読み出した値を変換すると、上位のバイトから並べた値になる。 -/
theorem ntohl_ofNativeBytes (e : Endian) {bs : Bytes} (h : bs.length = 4) :
    ntohl e (UInt32.ofNat (ofNativeBytes e bs)) = UInt32.ofNat (ofBeBytes bs) := by
  cases e with
  | big => rfl
  | little =>
      have hlt : ofLeBytes bs < 2 ^ 32 := by have := ofLeBytes_lt bs; rwa [h] at this
      have hback := leBytes_ofLeBytes bs
      rw [h] at hback
      simp only [ntohl, htonl, ofNativeBytes, UInt32.toNat_ofNat', Nat.mod_eq_of_lt hlt, hback]

theorem ntohs_ofNativeBytes (e : Endian) {bs : Bytes} (h : bs.length = 2) :
    ntohs e (UInt16.ofNat (ofNativeBytes e bs)) = UInt16.ofNat (ofBeBytes bs) := by
  cases e with
  | big => rfl
  | little =>
      have hlt : ofLeBytes bs < 2 ^ 16 := by have := ofLeBytes_lt bs; rwa [h] at this
      have hback := leBytes_ofLeBytes bs
      rw [h] at hback
      simp only [ntohs, htons, ofNativeBytes, UInt16.toNat_ofNat', Nat.mod_eq_of_lt hlt, hback]

theorem networkToHost64_ofNativeBytes (e : Endian) {bs : Bytes} (h : bs.length = 8) :
    networkToHost64 e (UInt64.ofNat (ofNativeBytes e bs)) = UInt64.ofNat (ofBeBytes bs) := by
  cases e with
  | big => rfl
  | little =>
      have hlt : ofLeBytes bs < 2 ^ 64 := by have := ofLeBytes_lt bs; rwa [h] at this
      have hbe : ofBeBytes bs < 2 ^ 64 := ofBeBytes_lt h
      have hback := leBytes_ofLeBytes bs
      rw [h] at hback
      have hbytes := nativeBytes_hostToNetwork64 .little (UInt64.ofNat (ofLeBytes bs))
      rw [UInt64.toNat_ofNat', Nat.mod_eq_of_lt hlt] at hbytes
      simp only [nativeBytes, beBytes, hback] at hbytes
      have hval := congrArg ofLeBytes hbytes
      rw [ofLeBytes_leBytes (UInt64.toNat_lt _)] at hval
      apply UInt64.toNat_inj.mp
      rw [UInt64.toNat_ofNat', Nat.mod_eq_of_lt hbe]
      exact hval

/-! ## 配置 -/

namespace FrameHeader

/-- 先頭部の 24 バイトの配置。 -/
def wire (h : FrameHeader) : Bytes :=
  beBytes 4 h.magic.toNat ++ [h.version] ++ [h.messageType] ++ beBytes 2 h.flags.toNat ++
    beBytes 4 h.metadataSize.toNat ++ beBytes 4 h.payloadSize.toNat ++ beBytes 8 h.requestId.toNat

@[simp] theorem length_wire (h : FrameHeader) : h.wire.length = SIZE := by simp [wire, SIZE]

/-- 先頭部の符号化は、バッファの先頭の 24 バイトだけを配置で置き換える。 -/
theorem encodeTo_eq (e : Endian) (h : FrameHeader) (buffer : Bytes) :
    h.encodeTo e buffer = h.wire ++ buffer.drop SIZE := by
  -- 欄を先頭から順に書くので、どの書き込みも、既に書いた欄の直後から始まる。
  rw [encodeTo, ← List.nil_append buffer]
  simp only [nativeBytes_htonl, nativeBytes_htons, nativeBytes_hostToNetwork64]
  rw [writeAt_append (by simp), writeAt_append (by simp), writeAt_append (by simp), writeAt_append (by simp),
    writeAt_append (by simp), writeAt_append (by simp), writeAt_append (by simp)]
  simp [wire, SIZE]

/-- 欄を位置から読んだ値。 -/
def field (buf : Bytes) (off n : Nat) : Nat := ofBeBytes ((buf.drop off).take n)

/-- 復号は、ホストのバイト順によらず、配置の欄を読む。 -/
theorem decode_eq (e : Endian) {buf : Bytes} (hlen : SIZE ≤ buf.length) :
    decode e buf =
      if UInt32.ofNat (field buf 0 4) = MAGIC then
        some {
          magic := UInt32.ofNat (field buf 0 4)
          version := UInt8.ofNat (field buf 4 1)
          messageType := UInt8.ofNat (field buf 5 1)
          flags := UInt16.ofNat (field buf 6 2)
          metadataSize := UInt32.ofNat (field buf 8 4)
          payloadSize := UInt32.ofNat (field buf 12 4)
          requestId := UInt64.ofNat (field buf 16 8) }
      else none := by
  have hfield : ∀ off n, off + n ≤ 24 → ((buf.drop off).take n).length = n := by
    intro off n hoff
    simp only [SIZE] at hlen
    simp only [List.length_take, List.length_drop]
    omega
  have hbyte : ∀ off, off + 1 ≤ 24 → load e buf off 1 = field buf off 1 := by
    intro off hoff
    obtain ⟨b, hb⟩ := List.length_eq_one_iff.mp (hfield off 1 hoff)
    simp only [load, field, hb]
    cases e <;> rfl
  simp only [decode, Nat.not_lt.mpr hlen, ↓reduceIte]
  rw [hbyte 4 (by omega), hbyte 5 (by omega)]
  simp only [load, ntohl_ofNativeBytes e (hfield 0 4 (by omega)), ntohs_ofNativeBytes e (hfield 6 2 (by omega)),
    ntohl_ofNativeBytes e (hfield 8 4 (by omega)), ntohl_ofNativeBytes e (hfield 12 4 (by omega)),
    networkToHost64_ofNativeBytes e (hfield 16 8 (by omega)), field]
  split <;> simp_all

/-- 先頭の欄のバイト。 -/
theorem slice_head {ys zs : Bytes} {n : Nat} (h : ys.length = n) : ((ys ++ zs).drop 0).take n = ys := by
  subst h
  rw [List.drop_zero, List.take_left]

/-- 手前の欄を読み飛ばす。 -/
theorem slice_skip {xs ys : Bytes} {off n : Nat} (h : xs.length ≤ off) :
    ((xs ++ ys).drop off).take n = (ys.drop (off - xs.length)).take n := by
  rw [List.drop_append, List.drop_eq_nil_of_le h, List.nil_append]

theorem field_head {ys zs : Bytes} {n : Nat} (h : ys.length = n) : field (ys ++ zs) 0 n = ofBeBytes ys :=
  congrArg ofBeBytes (slice_head h)

theorem field_skip {xs ys : Bytes} {off n : Nat} (h : xs.length ≤ off) :
    field (xs ++ ys) off n = field ys (off - xs.length) n :=
  congrArg ofBeBytes (slice_skip h)

/-- 配置を復号すると、元の先頭部が得られる。 -/
theorem decode_wire (e : Endian) (h : FrameHeader) (hm : h.magic = MAGIC) (x : Bytes) :
    decode e (h.wire ++ x) = some h := by
  have hlen : SIZE ≤ (h.wire ++ x).length := by simp
  have hbyte : ∀ b : UInt8, ofBeBytes [b] = b.toNat := fun b => by simp [ofBeBytes, ofLeBytes]
  have h32 : ∀ y : UInt32, ofBeBytes (beBytes 4 y.toNat) = y.toNat := fun y => ofBeBytes_beBytes y.toNat_lt
  have h16 : ofBeBytes (beBytes 2 h.flags.toNat) = h.flags.toNat := ofBeBytes_beBytes h.flags.toNat_lt
  have h64 : ofBeBytes (beBytes 8 h.requestId.toNat) = h.requestId.toNat := ofBeBytes_beBytes h.requestId.toNat_lt
  rw [decode_eq e hlen, wire]
  simp only [List.append_assoc]
  simp (disch := simp) only [field_skip, field_head, length_beBytes, List.length_singleton, Nat.reduceSub,
    hbyte, h32, h16, h64, UInt32.ofNat_toNat, UInt8.ofNat_toNat, UInt16.ofNat_toNat, UInt64.ofNat_toNat]
  rw [if_pos hm]

/-! ## 読んだバイトの書き戻し -/

theorem length_slice {buf : Bytes} {off n : Nat} (h : off + n ≤ buf.length) : ((buf.drop off).take n).length = n := by
  simp only [List.length_take, List.length_drop]
  omega

theorem field_lt {buf : Bytes} {off n : Nat} (h : off + n ≤ buf.length) : field buf off n < 256 ^ n :=
  ofBeBytes_lt (length_slice h)

/-- 欄を読んだ値を同じ長さで書くと、元のバイトになる。 -/
theorem beBytes_field {buf : Bytes} {off n : Nat} (h : off + n ≤ buf.length) :
    beBytes n (field buf off n) = (buf.drop off).take n :=
  beBytes_ofBeBytes (length_slice h)

theorem byte_field {buf : Bytes} {off : Nat} (h : off + 1 ≤ buf.length) :
    [UInt8.ofNat (field buf off 1)] = (buf.drop off).take 1 := by
  have hlt : field buf off 1 < 256 := field_lt h
  rw [← beBytes_field h, beBytes, leBytes, leBytes, List.reverse_singleton, Nat.mod_eq_of_lt hlt]

/-- 隣り合う欄のバイトを並べる。 -/
theorem slice_append (buf : Bytes) (off m n : Nat) :
    (buf.drop off).take m ++ (buf.drop (off + m)).take n = (buf.drop off).take (m + n) := by
  rw [List.take_add, List.drop_drop]

/-- 復号できた先頭部の配置は、読んだ 24 バイトそのものである。 -/
theorem wire_of_decode {e : Endian} {buf : Bytes} {h : FrameHeader} (hdecode : decode e buf = some h) :
    h.wire = buf.take SIZE := by
  have hlen : SIZE ≤ buf.length := by
    by_contra hshort
    simp [decode, Nat.lt_of_not_le hshort] at hdecode
  rw [decode_eq e hlen] at hdecode
  split at hdecode
  · cases hdecode
    simp only [SIZE] at hlen
    have h32 : ∀ off, off + 4 ≤ 24 → (UInt32.ofNat (field buf off 4)).toNat = field buf off 4 :=
      fun off hoff => UInt32.toNat_ofNat_of_lt' (field_lt (hoff.trans hlen))
    have h16 : (UInt16.ofNat (field buf 6 2)).toNat = field buf 6 2 := UInt16.toNat_ofNat_of_lt' (field_lt (by omega))
    have h64 : (UInt64.ofNat (field buf 16 8)).toNat = field buf 16 8 := UInt64.toNat_ofNat_of_lt' (field_lt (by omega))
    simp only [wire, h32 0 (by omega), h32 8 (by omega), h32 12 (by omega), h16, h64]
    rw [beBytes_field (by omega), byte_field (by omega), byte_field (by omega), beBytes_field (by omega),
      beBytes_field (by omega), beBytes_field (by omega), beBytes_field (by omega)]
    rw [slice_append, slice_append, slice_append, slice_append, slice_append, slice_append, List.drop_zero]
    rfl
  · cases hdecode

/-- 先頭の四バイトが印であるバイト列は、復号できる。 -/
theorem decode_isSome {e : Endian} {buf : Bytes} (hlen : SIZE ≤ buf.length)
    (hmagic : buf.take 4 = beBytes 4 MAGIC.toNat) : ∃ h, decode e buf = some h := by
  have hfield : field buf 0 4 = MAGIC.toNat := by
    rw [field, List.drop_zero, hmagic]
    exact ofBeBytes_beBytes MAGIC.toNat_lt
  rw [decode_eq e hlen, if_pos (by rw [hfield]; rfl)]
  exact ⟨_, rfl⟩

end FrameHeader

end Xrpc.Protocol
