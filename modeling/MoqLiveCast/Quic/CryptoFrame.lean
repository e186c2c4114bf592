import MoqLiveCast.Quic.Varint
/-!
# CryptoFrame — the CRYPTO frame, its writer and its parser (`quic_frame_write_crypto`, `quic_frame_parse_crypto`)
-/
namespace MoqLiveCast

def QUIC_FRAME_CRYPTO : Byte := 0x06

structure CryptoFrame where
  offset : Nat
  data : List Byte
deriving DecidableEq

def CryptoFrame.stop (f : CryptoFrame) : Nat := f.offset + f.data.length

def quicFrameWriteCrypto (cap : Nat) (f : CryptoFrame) : Option (List Byte) :=
  let needed := 1 + quicVarintLen f.offset + quicVarintLen f.data.length + f.data.length
  if cap < needed then none
  else
    (quicVarintEncode (cap - 1) f.offset).bind fun off =>
      (quicVarintEncode (cap - 1 - off.length) f.data.length).map fun len =>
        QUIC_FRAME_CRYPTO :: (off ++ len ++ f.data)

def quicFrameParseCrypto (data : List Byte) : Option (CryptoFrame × Nat) :=
  match data with
  | [] => none
  | type :: rest =>
    if type ≠ QUIC_FRAME_CRYPTO then none
    else
      (readVarint rest).bind fun (off, rest) =>
        (readVarint rest).bind fun (clen, rest) =>
          if rest.length < clen then none
          else some (⟨off, rest.take clen⟩, data.length - rest.length + clen)

theorem quicFrameParseCrypto_lt {data : List Byte} {f : CryptoFrame} {n : Nat}
    (h : quicFrameParseCrypto data = some (f, n)) : f.offset < 2 ^ 62 ∧ f.data.length < 2 ^ 62 := by
  unfold quicFrameParseCrypto at h
  split at h
  · cases h
  · split at h
    · cases h
    · obtain ⟨⟨off, rest1⟩, hoff, h⟩ := Option.bind_eq_some_iff.1 h
      obtain ⟨⟨clen, rest2⟩, hclen, h⟩ := Option.bind_eq_some_iff.1 h
      dsimp only at h
      split at h
      · cases h
      · simp only [Option.some.injEq, Prod.mk.injEq] at h
        rw [← h.1]
        refine ⟨readVarint_lt hoff, Nat.lt_of_le_of_lt ?_ (readVarint_lt hclen)⟩
        exact List.length_take_le _ _

theorem quicFrameParseCrypto_write {cap : Nat} {f : CryptoFrame} {bytes : List Byte}
    (hoff : f.offset < 2 ^ 62) (hlen : f.data.length < 2 ^ 62) (h : quicFrameWriteCrypto cap f = some bytes)
    (rest : List Byte) : quicFrameParseCrypto (bytes ++ rest) = some (f, bytes.length) := by
  unfold quicFrameWriteCrypto at h
  dsimp only at h
  split at h
  · cases h
  · obtain ⟨off, hoffBytes, h⟩ := Option.bind_eq_some_iff.1 h
    obtain ⟨len, hlenBytes, h⟩ := Option.map_eq_some_iff.1 h
    have hoff' : varintBytes f.offset = off := by
      unfold quicVarintEncode at hoffBytes
      split at hoffBytes
      · cases hoffBytes
      · exact Option.some.inj hoffBytes
    have hlen' : varintBytes f.data.length = len := by
      unfold quicVarintEncode at hlenBytes
      split at hlenBytes
      · cases hlenBytes
      · exact Option.some.inj hlenBytes
    rw [← h, ← hoff', ← hlen']
    unfold quicFrameParseCrypto
    rw [List.cons_append]
    dsimp only
    rw [if_neg (fun hne => hne rfl), List.append_assoc, List.append_assoc, readVarint_varintBytes hoff, Option.bind_some]
    dsimp only
    rw [readVarint_varintBytes hlen, Option.bind_some]
    dsimp only
    rw [if_neg (by rw [List.length_append]; omega), List.take_left]
    simp only [Option.some.injEq, Prod.mk.injEq, true_and, List.length_cons, List.length_append]
    omega

def cryptoBytes (f : CryptoFrame) : List Byte :=
  QUIC_FRAME_CRYPTO :: (varintBytes f.offset ++ varintBytes f.data.length ++ f.data)

theorem quicFrameWriteCrypto_eq {cap : Nat} {f : CryptoFrame} (h : 1 + quicVarintLen f.offset + quicVarintLen f.data.length +
    f.data.length ≤ cap) : quicFrameWriteCrypto cap f = some (cryptoBytes f) := by
  unfold quicFrameWriteCrypto quicVarintEncode
  dsimp only
  rw [if_neg (by omega), if_neg (by omega), Option.bind_some, varintBytes_length, if_neg (by omega), Option.map_some]
  rfl

theorem quicFrameParseCrypto_bytes {f : CryptoFrame} (hoff : f.offset < 2 ^ 62) (hlen : f.data.length < 2 ^ 62) :
    quicFrameParseCrypto (cryptoBytes f) = some (f, (cryptoBytes f).length) := by
  have h := quicFrameParseCrypto_write hoff hlen (quicFrameWriteCrypto_eq (Nat.le_refl _)) []
  rwa [List.append_nil] at h

end MoqLiveCast
